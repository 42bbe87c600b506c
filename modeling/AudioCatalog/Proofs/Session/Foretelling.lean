import AudioCatalog.Proofs.Import.Atomicity
import AudioCatalog.Proofs.Import.Standing
import AudioCatalog.Proofs.Session.Effect

/-!
# Finding foretells importing

To look for a recording and to import it are told apart by the commit only.
`Foretells` says what the one tells of the other, and `Importer.find_foretells` that it does:
a catalog in order refuses what an import has just decided only if the store fails.
-/

namespace AudioCatalog

/-! ## Texts -/

@[simp]
theorem PathFault.message_refused_eq_iff {shown reason text : String} :
    (refused shown reason).message = s!"{shown}: {text}" ↔ reason = text := by
  simp only [message, String.append_right_inj]
  rfl

/-- A path name that is not text is not taken for a file that is left alone. -/
@[simp]
theorem PathFault.message_notText_ne (shown text : String) :
    (notText shown).message ≠ s!"{shown}: {text}" := by
  intro h
  have hchars := congrArg String.toList h
  simp [message, toString] at hchars

/-- A file is not admitted for its path name only if that is not text. -/
theorem World.eq_notText_of_admit {world : World} {path : Pathname} {fault : PathFault}
    (h : world.admit path = .error (.badPath fault)) : fault = .notText path.shown := by
  unfold World.admit at h
  split at h
  · cases h
    rfl
  · split at h
    · cases h
    · cases h

/-! ## Remarks -/

theorem Resolution.digestOnly_mem_remarks (resolution : Resolution) :
    .digestOnly ∈ resolution.remarks ↔ resolution.digestOnly = true := by
  obtain ⟨verdict, digestOnly⟩ := resolution
  cases verdict <;> simp [remarks]

/-- To deal with the file changes no more of a receipt than what it tells of the file. -/
theorem ImportJob.cleared_receipt (job : ImportJob) (world : World) (receipt : Receipt) :
    let ended := (job.cleared world receipt).2
    ended.path = receipt.path ∧ ended.digest = receipt.digest ∧
      ended.verdict = receipt.verdict ∧
      (.digestOnly ∈ ended.remarks ↔ .digestOnly ∈ receipt.remarks) := by
  rw [cleared]
  split
  · exact ⟨rfl, rfl, rfl, .rfl⟩
  · split
    · exact ⟨rfl, rfl, rfl, .rfl⟩
    · refine ⟨rfl, rfl, rfl, ?_⟩
      rw [List.mem_append, List.mem_singleton]
      exact or_iff_left (by simp)

/-! ## What a search tells of an import -/

/-- What is found in looking for the recording in a file, and how an import of the file ends. -/
inductive Foretells (path : Pathname) : Except ImportFault Finding → Conclusion → Prop
  | committed {finding : Finding} {receipt : Receipt} (path_eq : finding.path = receipt.path)
      (digest_eq : finding.digest = receipt.digest)
      (verdict_eq : finding.resolution.verdict = receipt.verdict)
      (digestOnly_iff : finding.resolution.digestOnly = true ↔ .digestOnly ∈ receipt.remarks) :
      Foretells path (.ok finding) (.ok (.committed receipt))
  /-- No recording is looked for in a file that would be left alone. -/
  | rejected (reason : Rejection) :
      Foretells path (.error ⟨path, .started, .badPath (.refused path.shown reason.message)⟩)
        (.ok (.rejected path reason))
  /-- What fails before the commit fails in both, and the file is not one that would be left
  alone. -/
  | failed (fault : ImportFault)
      (notText : ∀ cause, fault = ⟨path, .started, .badPath cause⟩ → cause = .notText path.shown) :
      Foretells path (.error fault) (.error fault)

/-- In a catalog that is in order, a search foretells every import without a ticket that is
not cancelled and that the store does not fail. -/
theorem Importer.find_foretells (importer : Importer) {job : ImportJob} {world claimed : World}
    (hsound : world.catalog.Sound) (hticket : job.ticket = none)
    (huncancelled : job.wasCancelled world = false) (hclaimed : job.claimed? world = some claimed)
    (hstore : ∀ fault,
      (importer.run job world).2 ≠ .error ⟨job.path, .committed, .store fault⟩) :
    Foretells job.path (importer.find job.path job.handling.careful world)
      (importer.run job world).2 := by
  rw [run_eq] at hstore ⊢
  rw [find]
  simp only [huncancelled, Bool.false_eq_true, if_false, hclaimed] at hstore ⊢
  cases hadmission : world.admit job.path with
  | error error =>
      refine .failed _ fun cause h => ?_
      simp only [ImportFault.mk.injEq, true_and] at h
      exact World.eq_notText_of_admit (h ▸ hadmission)
  | ok admitted =>
      cases admitted with
      | error reason => exact .rejected reason
      | ok facts =>
          simp only [hadmission] at hstore ⊢
          cases hdecode : importer.decode world job.path facts with
          | error cause => exact .failed _ fun _ h => by cases h
          | ok decoded =>
              simp only [hdecode] at hstore ⊢
              cases hidentify : identify decoded.digest decoded.key world.catalog.lookup
                  job.handling.careful with
              | error error => exact .failed _ fun _ h => by cases h
              | ok resolution =>
                  simp only [hidentify] at hstore ⊢
                  -- The search is over here, and what it has decided is still to be written.
                  cases hwrite : job.write world decoded resolution with
                  | error error =>
                      rw [hwrite] at hstore
                      have hrefuses := ImportJob.refuses_write (World.text_of_admitted hadmission)
                        (hsound.standsIn_of_identify hidentify) hwrite
                      cases hrefuses with
                      | locked | readOnly | full => exact absurd rfl (hstore _)
                      | unknownTicket own =>
                          rw [hticket] at own
                          cases own
                  | ok written =>
                      obtain ⟨id, effect, catalog⟩ := written
                      obtain ⟨hpath, hdigest, hverdict, hremarks⟩ := job.cleared_receipt
                        { claimed with catalog := catalog }
                        (job.receipt decoded resolution id effect)
                      exact .committed hpath.symm hdigest.symm hverdict.symm
                        (resolution.digestOnly_mem_remarks.symm.trans hremarks.symm)

/-! ## Sessions -/

namespace Session

/-- Whatever a session has come to, a search changes nothing, and tells how an import of the
file would end, whether the file is kept or not, unless the store fails the import.  Something
is found out exactly when the import is committed, and then it is what the import finds out.
The search fails with the reason why a file is left alone exactly when the import rejects the
file for that reason, and otherwise as the import fails, at the same stage and with the same
error. -/
theorem find_foretells_run {first : Session} {storage : Storage} {world : World}
    {answers : List Answer} (hfresh : first.Fresh)
    (hrun : Run first answers (opened storage world)) (importer : Importer) (path : Pathname)
    (keep careful : Bool) (hstore : ∀ fault,
      (importer.run (.direct path ⟨keep, careful⟩ none) world).2 ≠
        .error ⟨path, .committed, .store fault⟩) :
    let found := importer.find path careful world
    let conclusion := (importer.run (.direct path ⟨keep, careful⟩ none) world).2
    world.call (.find importer path careful) = (world, .found found) ∧
      ((∃ finding, found = .ok finding) ↔ ∃ receipt, conclusion = .ok (.committed receipt)) ∧
      (∀ finding receipt, found = .ok finding → conclusion = .ok (.committed receipt) →
        finding.path = receipt.path ∧ finding.digest = receipt.digest ∧
          finding.resolution.verdict = receipt.verdict ∧
          (finding.resolution.digestOnly = true ↔ .digestOnly ∈ receipt.remarks)) ∧
      (∀ text, (∃ fault, found = .error ⟨path, .started, .badPath fault⟩ ∧
          fault.message = s!"{path.shown}: {text}") ↔
        ∃ reason, conclusion = .ok (.rejected path reason) ∧ reason.message = text) ∧
      ∀ fault, found = .error fault ↔ conclusion = .error fault ∨
        ∃ reason, conclusion = .ok (.rejected path reason) ∧
          fault = ⟨path, .started, .badPath (.refused path.shown reason.message)⟩ := by
  intro found conclusion
  have hsound : world.catalog.Sound := sound_of_run hfresh hrun (.refl _)
  have hforetells : Foretells path found conclusion :=
    importer.find_foretells hsound rfl rfl rfl hstore
  refine ⟨rfl, ?_⟩
  generalize found = found, conclusion = conclusion at hforetells
  cases hforetells with
  | committed hpath hdigest hverdict hremarks =>
      refine ⟨⟨fun _ => ⟨_, rfl⟩, fun _ => ⟨_, rfl⟩⟩, ?_, ?_, ?_⟩
      · rintro _ _ ⟨⟩ ⟨⟩
        exact ⟨hpath, hdigest, hverdict, hremarks⟩
      · simp
      · simp
  | rejected reason =>
      refine ⟨by simp, by simp, fun text => ?_, fun fault => ?_⟩
      · simp
      · simp [eq_comm]
  | failed fault hnotText =>
      refine ⟨by simp, by simp, fun text => ?_, fun other => ?_⟩
      · constructor
        · rintro ⟨cause, hfault, hmessage⟩
          rw [hnotText cause (Except.error.inj hfault)] at hmessage
          exact absurd hmessage (PathFault.message_notText_ne _ _)
        · rintro ⟨reason, hrejected, -⟩
          cases hrejected
      · simp

/-- A search says of the file `a` what an import of it then commits, and that there was no
acoustic key to compare. -/
theorem find_foretells_run_of_one_file : ∃ finding receipt,
    Importer.clicking.find ⟨[47, 97]⟩ true .withOneFile = .ok finding ∧
      (Importer.clicking.run (.direct ⟨[47, 97]⟩ ⟨true, true⟩ none) .withOneFile).2 =
        .ok (.committed receipt) ∧
      finding.digest = receipt.digest ∧ finding.resolution.verdict = receipt.verdict ∧
      finding.resolution.digestOnly = true ∧ .digestOnly ∈ receipt.remarks := by
  have hfresh : (opened .exclusive .withOneFile).Fresh := .refl _
  obtain ⟨receipt, hcommitted, hremarks⟩ : ∃ receipt,
      (Importer.clicking.run (.direct ⟨[47, 97]⟩ ⟨true, true⟩ none) .withOneFile).2 =
        .ok (.committed receipt) ∧ Remark.digestOnly ∈ receipt.remarks :=
    Importer.run_direct_withOneFile 0
  obtain ⟨-, hfound, hagree, -, -⟩ := find_foretells_run hfresh (.start _) Importer.clicking
    ⟨[47, 97]⟩ true true (by simp [hcommitted])
  obtain ⟨finding, hfinding⟩ := hfound.mpr ⟨receipt, hcommitted⟩
  obtain ⟨-, hdigest, hverdict, hdegraded⟩ := hagree finding receipt hfinding hcommitted
  exact ⟨finding, receipt, hfinding, hcommitted, hdigest, hverdict, hdegraded.mpr hremarks,
    hremarks⟩

end Session

end AudioCatalog
