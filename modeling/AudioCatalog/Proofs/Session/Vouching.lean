import AudioCatalog.Proofs.Import.Writing
import AudioCatalog.Proofs.Session.ExactRuns
import AudioCatalog.Proofs.Session.Writes

/-!
# What a catalog vouches for

The receipt of a commit names an identity, and the catalog vouches for it from then on: the
identity has the digest of the file, unless the file was only found to sound like it, and then
it has another one.  No write takes this away.
-/

namespace AudioCatalog

/-! ## Identities and their digests -/

/-- Whether a catalog has an identity with a digest. -/
def Catalog.Has (catalog : Catalog) (id : IdentityId) (digest : Digest) : Prop :=
  ∃ row, (id.value, row) ∈ catalog.identities.rows ∧ row.digest = .blob digest.bytes

namespace Catalog

variable {catalog next : Catalog} {id : IdentityId} {digest : Digest}

theorem Keeps.has_iff {ledger : List Identity} (hkeeps : catalog.Keeps ledger) :
    catalog.Has id digest ↔ ∃ identity ∈ ledger, identity.id = id ∧ identity.digest = digest := by
  constructor
  · rintro ⟨row, hrow, hdigest⟩
    obtain ⟨identity, hmem, heq⟩ := hkeeps.exists_of_mem_rows hrow
    rw [Prod.mk.injEq] at heq
    rw [heq.2] at hdigest
    exact ⟨identity, hmem, congrArg IdentityId.mk heq.1.symm,
      (identity.digest_row_eq_iff digest).mp hdigest⟩
  · rintro ⟨identity, hmem, rfl, rfl⟩
    exact ⟨identity.row, hkeeps.mem_rows hmem, rfl⟩

theorem Has.congr (hhas : catalog.Has id digest) (hsame : next.SameTables catalog) :
    next.Has id digest := by
  rw [Has, hsame.identities]
  exact hhas

/-- No write takes an identity away or changes its digest. -/
theorem Has.write (hwrite : catalog.Write next) (hsound : catalog.Sound)
    (hhas : catalog.Has id digest) : next.Has id digest := by
  obtain ⟨ledger, hkeeps, -, -⟩ := hsound
  obtain ⟨identity, hmem, hid, hdigest⟩ := hkeeps.has_iff.mp hhas
  cases hwrite with
  | addIdentity written =>
      obtain ⟨_, _, _, _, hkept⟩ := hkeeps.addIdentity written
      exact hkept.has_iff.mpr ⟨identity, List.mem_append_left _ hmem, hid, hdigest⟩
  | addSource written =>
      obtain ⟨_, _, _, hkept⟩ := hkeeps.addSource written
      refine hkept.has_iff.mpr ⟨_, List.mem_map_of_mem hmem, ?_⟩
      split
      · exact ⟨hid, hdigest⟩
      · exact ⟨hid, hdigest⟩
  | addTicket written =>
      obtain ⟨_, _, _, _, rfl⟩ := addTicket_eq_ok written
      exact hhas
  | resolve written =>
      obtain ⟨_, _, _, _, rfl⟩ := markResolved_eq_ok (transaction_eq_ok written)
      exact hhas
  | lock locked => exact hhas

end Catalog

/-- Whether a catalog vouches for the identity that a file was given: it has the digest of the
file, or another one if the file only sounds like it. -/
def Verdict.Fits (verdict : Verdict) (catalog : Catalog) (id : IdentityId) (digest : Digest) :
    Prop :=
  match verdict with
  | .new | .exact _ | .ambiguous _ => catalog.Has id digest
  | .perceptual .. => ∃ other, catalog.Has id other ∧ other ≠ digest

namespace Verdict.Fits

variable {verdict : Verdict} {catalog next : Catalog} {id : IdentityId} {digest : Digest}

theorem imp (hfits : verdict.Fits catalog id digest)
    (hgrows : ∀ digest, catalog.Has id digest → next.Has id digest) :
    verdict.Fits next id digest := by
  cases verdict with
  | new | exact _ | ambiguous _ => exact hgrows digest hfits
  | perceptual _ _ =>
      obtain ⟨other, hhas, hne⟩ := hfits
      exact ⟨other, hgrows other hhas, hne⟩

theorem congr (hfits : verdict.Fits catalog id digest) (hsame : next.SameTables catalog) :
    verdict.Fits next id digest :=
  hfits.imp fun _ hhas => hhas.congr hsame

theorem write (hwrite : catalog.Write next) (hsound : catalog.Sound)
    (hfits : verdict.Fits catalog id digest) : verdict.Fits next id digest :=
  hfits.imp fun _ hhas => hhas.write hwrite hsound

end Verdict.Fits

/-- Whether a catalog is sound and vouches for a receipt. -/
def Receipt.Vouched (receipt : Receipt) (catalog : Catalog) : Prop :=
  catalog.Sound ∧ receipt.verdict.Fits catalog receipt.identity receipt.digest

namespace Receipt.Vouched

variable {receipt : Receipt} {catalog next : Catalog}

theorem congr (hsame : next.SameTables catalog) (hvouched : receipt.Vouched catalog) :
    receipt.Vouched next :=
  ⟨hvouched.1.congr_tables hsame, hvouched.2.congr hsame⟩

theorem write (hwrite : catalog.Write next) (hvouched : receipt.Vouched catalog) :
    receipt.Vouched next :=
  ⟨hvouched.1.write hwrite, hvouched.2.write hwrite hvouched.1⟩

theorem cleared {job : ImportJob} (world : World) (hvouched : receipt.Vouched catalog) :
    (job.cleared world receipt).2.Vouched catalog := by
  rw [ImportJob.cleared]
  split
  · exact hvouched
  · split <;> exact hvouched

end Receipt.Vouched

/-! ## Receipts of imports -/

/-- What is known of a resolution, or of the receipt that came of it, as an import enters a
phase. -/
def Phase.Vouched (catalog : Catalog) : Phase → Prop
  | .resolved decoded resolution | .claimed decoded resolution =>
    ∀ id ∈ resolution.verdict.matched, resolution.verdict.Fits catalog id decoded.digest
  | .committed receipt => receipt.Vouched catalog
  | .finished conclusion => ∀ receipt ∈ conclusion.receipt?, receipt.Vouched catalog
  | .starting | .admitted _ | .fingerprinted _ | .rolledBack _ => True

theorem Phase.Vouched.congr {catalog next : Catalog} {phase : Phase}
    (hvouched : phase.Vouched catalog) (hsame : next.SameTables catalog) :
    phase.Vouched next := by
  cases phase with
  | starting | admitted _ | fingerprinted _ | rolledBack _ => exact trivial
  | resolved decoded resolution | claimed decoded resolution =>
      exact fun id hid => (hvouched id hid).congr hsame
  | committed receipt => exact Receipt.Vouched.congr hsame hvouched
  | finished conclusion => exact fun receipt hreceipt => (hvouched receipt hreceipt).congr hsame

/-- The identity that a comparison finds is one that the catalog vouches for. -/
theorem Catalog.Sound.fits_of_identify {catalog : Catalog} (hsound : catalog.Sound)
    {digest : Digest} {key : Option AcousticKey} {careful : Bool} {resolution : Resolution}
    (h : identify digest key catalog.lookup careful = .ok resolution) :
    ∀ id ∈ resolution.verdict.matched, resolution.verdict.Fits catalog id digest := by
  obtain ⟨ledger, hkeeps, -, -⟩ := hsound
  obtain ⟨-, hresolution⟩ := hkeeps.eq_resolutionIn_of_identify h
  intro id hid
  cases hverdict : resolution.verdict with
  | new | ambiguous candidates =>
      rw [hverdict] at hid
      cases hid
  | exact matched =>
      rw [hverdict] at hid
      cases hid
      rw [hresolution] at hverdict
      exact hkeeps.has_iff.mpr (exists_of_exact hverdict)
  | perceptual matched similarity =>
      rw [hverdict] at hid
      cases hid
      rw [hresolution] at hverdict
      obtain ⟨⟨identity, hmem, hid⟩, hnew⟩ := exists_of_perceptual hverdict
      exact ⟨identity.digest, hkeeps.has_iff.mpr ⟨identity, hmem, hid, rfl⟩, hnew identity hmem⟩

/-- The catalog vouches for the receipt of a commit. -/
theorem ImportJob.vouched_write {job : ImportJob} {world : World} {decoded : Decoded}
    {resolution : Resolution} {id : IdentityId} {effect : CommitEffect} {catalog : Catalog}
    (hsound : world.catalog.Sound)
    (hfits : ∀ id ∈ resolution.verdict.matched,
      resolution.verdict.Fits world.catalog id decoded.digest)
    (h : job.write world decoded resolution = .ok (id, effect, catalog)) :
    (job.receipt decoded resolution id effect).Vouched catalog := by
  have hwrite := write_of_write h
  have hkeptFits : ∀ id ∈ resolution.verdict.matched,
      resolution.verdict.Fits catalog id decoded.digest :=
    fun id hid => (hfits id hid).write hwrite hsound
  refine ⟨hsound.write hwrite, ?_⟩
  obtain ⟨ledger, hkeeps, -, -⟩ := hsound
  obtain ⟨-, ⟨-, hmatched, -, -, hkept⟩ | ⟨-, hmatched, -, -⟩⟩ := write_cases hkeeps h
  · have hhas : catalog.Has id decoded.digest :=
      hkept.has_iff.mpr ⟨_, List.mem_append_right _ (List.mem_singleton.mpr rfl), rfl, rfl⟩
    simp only [receipt]
    cases hverdict : resolution.verdict with
    | new | ambiguous candidates => exact hhas
    | exact matched | perceptual matched similarity =>
        rw [hverdict] at hmatched
        cases hmatched
  · exact hkeptFits id hmatched

namespace Importer

variable (importer : Importer)

/-- With each step of an import the catalog vouches for what the next phase tells of. -/
theorem vouched_advance {job : ImportJob} {world : World} {phase : Phase}
    (hsound : world.catalog.Sound) (hvouched : phase.Vouched world.catalog) :
    (importer.advance job world phase).2.Vouched (importer.advance job world phase).1.catalog := by
  have hfailed : ∀ (catalog : Catalog) (stage : Stage) (error : Error),
      (job.failed stage error).Vouched catalog := by
    intro catalog stage error receipt hreceipt
    cases hreceipt
  cases phase with
  | starting =>
      simp only [advance, ImportJob.start]
      split
      · exact hfailed _ _ _
      · intro receipt hreceipt
        cases hreceipt
      · exact trivial
  | admitted facts =>
      simp only [advance, examine]
      split
      · exact hfailed _ _ _
      · split
        · exact hfailed _ _ _
        · exact trivial
  | fingerprinted decoded =>
      simp only [advance, ImportJob.compare]
      split
      · exact hfailed _ _ _
      · split
        · exact hfailed _ _ _
        · rename_i resolution hidentified
          exact hsound.fits_of_identify hidentified
  | resolved decoded resolution =>
      simp only [advance, ImportJob.claim_eq]
      split
      · rename_i claimed hclaimed
        rw [(job.claimed?_eq_some hclaimed).1]
        exact hvouched
      · exact hfailed _ _ _
  | claimed decoded resolution =>
      simp only [advance, ImportJob.commit]
      split
      · exact trivial
      · rename_i id effect catalog hwritten
        exact ImportJob.vouched_write hsound hvouched hwritten
  | rolledBack error => exact hfailed _ _ _
  | committed receipt =>
      simp only [advance, ImportJob.clear_eq, ImportJob.catalog_cleared]
      intro other hother
      cases hother
      exact Receipt.Vouched.cleared world hvouched
  | finished conclusion => exact hvouched

theorem vouched_drive (job : ImportJob) (others : Others) (state : World × Unit)
    (hsound : state.1.catalog.Sound) :
    let ended :=
      importer.drive job (fun phase state => (others.act phase state.1, ())) state .starting
    ∀ receipt ∈ ended.2.receipt?, receipt.Vouched ended.1.1.catalog :=
  (importer.drive_invariant job (fun phase state => (others.act phase state.1, ()))
    (fun phase now => now.1.catalog.Sound ∧ phase.Vouched now.1.catalog)
    (fun phase now hknown => ⟨hknown.1.write (others.leave phase now.1).write,
      hknown.2.congr (others.leave phase now.1).sameTables⟩)
    (fun phase world _ _ hknown => ⟨(importer.writes_advance job world phase).sound hknown.1,
      importer.vouched_advance hknown.1 hknown.2⟩)
    state .starting ⟨hsound, trivial⟩).2

theorem vouched_replayInTurn (handling : Handling) (others : Pathname → Others)
    (tickets : List Ticket) :
    ∀ state : World × Unit, state.1.catalog.Sound →
      let replayed := importer.replayInTurn handling
        (fun path phase state => ((others path).act phase state.1, ())) tickets state
      ∀ entry ∈ replayed.2, ∀ receipt ∈ entry.conclusion.receipt?,
        receipt.Vouched replayed.1.1.catalog := by
  induction tickets with
  | nil => exact fun _ _ _ hentry => nomatch hentry
  | cons ticket tickets ih =>
      intro state hsound replayed entry hentry receipt hreceipt
      have hfirst := importer.vouched_drive (.replay ticket handling none) (others ticket.path)
        state hsound
      have hwrites := importer.writes_drive (.replay ticket handling none) (others ticket.path)
        state .starting
      rcases List.mem_cons.mp hentry with rfl | hentry
      · exact (importer.writes_replayInTurn handling others tickets _).keeps
          Receipt.Vouched.write (hfirst receipt hreceipt)
      · exact ih _ (hwrites.sound hsound) entry hentry receipt hreceipt

end Importer

theorem World.receipts_wrote {α : Type} {world : World} {answer : Except Error α → Answer}
    (hanswer : ∀ result, (answer result).receipts = []) (result : Except Error (α × Catalog)) :
    (world.wrote answer result).2.receipts = [] := by
  cases result with
  | error error => exact hanswer (.error error)
  | ok written => exact hanswer (.ok written.1)

/-- After a call the catalog vouches for all receipts in the answer. -/
theorem World.vouched_call {world : World} (hsound : world.catalog.Sound) (call : Call) :
    ∀ receipt ∈ (world.call call).2.receipts, receipt.Vouched (world.call call).1.catalog := by
  intro receipt hreceipt
  cases call with
  | insert draft source =>
      rw [World.call, receipts_wrote fun _ => rfl] at hreceipt
      cases hreceipt
  | attach id source =>
      rw [World.call, receipts_wrote fun _ => rfl] at hreceipt
      cases hreceipt
  | find importer path careful => cases hreceipt
  | addTicket path =>
      rw [World.call, receipts_wrote fun _ => rfl] at hreceipt
      cases hreceipt
  | resolve id =>
      rw [World.call, receipts_wrote fun _ => rfl] at hreceipt
      cases hreceipt
  | run importer job others =>
      exact importer.vouched_drive job others (world, ()) hsound receipt
        (Option.mem_toList.mp hreceipt)
  | replayPending importer handling others =>
      rw [World.call] at hreceipt ⊢
      cases hreplay : importer.replayAmong handling others world with
      | error error =>
          rw [hreplay] at hreceipt
          cases hreceipt
      | ok replayed =>
          obtain ⟨⟨state, batch⟩, hobserved, rfl⟩ := map_eq_ok_iff.mp hreplay
          obtain ⟨tickets, _, hobserved⟩ := bind_eq_ok_iff.mp hobserved
          cases hobserved
          rw [hreplay] at hreceipt
          obtain ⟨entry, hentry, hreceipt⟩ := List.mem_flatMap.mp hreceipt
          exact importer.vouched_replayInTurn handling others tickets (world, ()) hsound entry
            hentry receipt (Option.mem_toList.mp hreceipt)

end AudioCatalog
