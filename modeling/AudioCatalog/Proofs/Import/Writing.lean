import AudioCatalog.Proofs.Catalog.Identification
import AudioCatalog.Proofs.Import.Deposits

/-!
# What a commit writes

`ImportJob.write_cases` is what there is to know of a commit that succeeded: what it made of
the ledger, which ticket it resolved, and that it did nothing else to the catalog.
-/

namespace AudioCatalog

/-! ## Ledgers as they are read -/

theorem Identity.asStored_extended (identity : Identity) (source : Source)
    (metadata : Option Metadata) :
    (identity.extended source metadata).asStored =
      identity.asStored.extended source.asStored metadata := by
  have hany : (identity.sources.map Source.asStored).any (·.sameState source.asStored) =
      identity.sources.any (·.sameState source) := List.any_map
  simp only [extended, asStored, Source.addTo, hany]
  split
  · rfl
  · rw [List.map_append, List.map_singleton]

/-- Reading an extended ledger is extending what is read of the ledger. -/
theorem map_asStored_extendEntry (ledger : List Identity) (id : IdentityId) (source : Source)
    (metadata : Option Metadata) :
    (extendEntry ledger id source metadata).map Identity.asStored =
      extendEntry (ledger.map Identity.asStored) id source.asStored metadata := by
  rw [extendEntry, extendEntry, List.map_map, List.map_map]
  apply List.map_congr_left
  intro identity _
  have hid : identity.asStored.id = identity.id := rfl
  simp only [Function.comp_apply, hid]
  split
  · exact identity.asStored_extended source metadata
  · rfl

/-! ## Tickets after a commit -/

theorem Table.row?_modify {ρ : Type} (table : Table ρ) (id other : Int) (change : ρ → ρ) :
    (table.modify id change).row? other =
      if other = id then (table.row? other).map change else table.row? other := by
  rw [row?, row?, modify]
  simp only [List.find?_map, Option.map_map]
  have hfind : table.rows.find? ((fun entry : Int × ρ => decide (entry.1 = other)) ∘
      fun entry => (entry.1, if entry.1 = id then change entry.2 else entry.2)) =
        table.rows.find? fun entry => decide (entry.1 = other) := rfl
  rw [hfind]
  cases hentry : table.rows.find? fun entry => decide (entry.1 = other) with
  | none => simp
  | some entry =>
      have hid : entry.1 = other := by simpa using List.find?_some hentry
      by_cases hsame : other = id
      · simp [hid, hsame]
      · simp [hid, hsame]

/-- A commit changes no ticket but its own. -/
theorem Table.row?_afterCommit (tickets : Table TicketRow) (ticket : Option TicketId)
    (identity : IdentityId) (now : Timestamp) (id : Int) :
    (tickets.afterCommit ticket identity now).row? id =
      if ticket = some ⟨id⟩ then
        (tickets.row? id).map fun row => row.settled (some identity) now
      else tickets.row? id := by
  cases ticket with
  | none => rfl
  | some ticket =>
      rw [afterCommit, settle, row?_modify]
      have hsame : id = ticket.value ↔ some ticket = some (⟨id⟩ : TicketId) := by
        rw [Option.some.injEq, eq_comm]
        exact ⟨fun h => congrArg TicketId.mk h, congrArg TicketId.value⟩
      simp only [hsame]

/-! ## Commits -/

/-- A commit adds an identity if the verdict names none, and else extends the one that it
names. -/
theorem ImportJob.write_cases {job : ImportJob} {world : World} {ledger : List Identity}
    (hkeeps : world.catalog.Keeps ledger) {decoded : Decoded} {resolution : Resolution}
    {id : IdentityId} {effect : CommitEffect} {catalog : Catalog}
    (h : job.write world decoded resolution = .ok (id, effect, catalog)) :
    let deposit := job.deposit decoded world.now
    (∃ identities sources, catalog = { world.catalog with
        identities := identities
        sources := sources
        tickets := world.catalog.tickets.afterCommit job.ticket id world.now }) ∧
      (effect = .inserted ∧ resolution.verdict.matched = none ∧
          id.value = world.catalog.identities.greatestId + 1 ∧
          (∀ identity ∈ ledger, identity.digest ≠ decoded.digest) ∧
          catalog.Keeps (ledger ++ [deposit.draft.entry id [deposit.source] world.now]) ∨
        effect = .attached ∧ resolution.verdict.matched = some id ∧
          (∃ identity ∈ ledger, identity.id = id) ∧
          catalog.Keeps (extendEntry ledger id deposit.source (some decoded.metadata))) := by
  intro deposit
  rw [write] at h
  simp only at h
  split at h
  · rename_i matched hmatched
    obtain ⟨added, hadded, h⟩ := map_eq_ok_iff.mp h
    cases h
    obtain ⟨hid, _, ⟨identities, sources, rfl, _, _⟩, hkept⟩ := hkeeps.addSource hadded
    exact ⟨⟨identities, sources, rfl⟩, .inr ⟨rfl, hmatched, hid, hkept⟩⟩
  · rename_i hmatched
    obtain ⟨⟨number, added⟩, hadded, h⟩ := map_eq_ok_iff.mp h
    cases h
    obtain ⟨hdigest, _, hnumber, ⟨identities, sources, rfl, _, _⟩, hkept⟩ :=
      hkeeps.addIdentity hadded
    exact ⟨⟨identities, sources, rfl⟩, .inl ⟨rfl, hmatched, hnumber, hdigest, hkept⟩⟩

/-- A new identity is numbered higher than all that are there. -/
theorem ImportJob.lt_of_inserted {job : ImportJob} {world : World} {ledger : List Identity}
    (hkeeps : world.catalog.Keeps ledger) {decoded : Decoded} {resolution : Resolution}
    {id : IdentityId} {effect : CommitEffect} {catalog : Catalog}
    (h : job.write world decoded resolution = .ok (id, effect, catalog))
    (hinserted : effect = .inserted) :
    ∀ entry ∈ world.catalog.identities.rows, entry.1 < id.value := by
  intro entry hentry
  have hle := world.catalog.identities.le_greatestId entry hentry
  obtain ⟨-, ⟨-, -, hnumber, -⟩ | ⟨hattached, -⟩⟩ := write_cases hkeeps h
  · rw [hnumber]
    exact Int.lt_add_one_of_le hle
  · rw [hinserted] at hattached
    cases hattached

/-- A commit uses up one number of a source, and one of an identity if it adds one. -/
theorem ImportJob.greatestId_write {job : ImportJob} {world : World} {ledger : List Identity}
    (hkeeps : world.catalog.Keeps ledger) {decoded : Decoded} {resolution : Resolution}
    {id : IdentityId} {effect : CommitEffect} {catalog : Catalog}
    (h : job.write world decoded resolution = .ok (id, effect, catalog)) :
    catalog.sources.greatestId = world.catalog.sources.greatestId + 1 ∧
      catalog.identities.greatestId =
        world.catalog.identities.greatestId + if effect = .inserted then 1 else 0 := by
  rw [write] at h
  simp only at h
  split at h
  · obtain ⟨added, hadded, h⟩ := map_eq_ok_iff.mp h
    cases h
    obtain ⟨_, _, ⟨_, _, rfl, hidentities, hsources⟩, _⟩ := hkeeps.addSource hadded
    exact ⟨hsources, hidentities.trans (Int.add_zero _).symm⟩
  · obtain ⟨⟨number, added⟩, hadded, h⟩ := map_eq_ok_iff.mp h
    cases h
    obtain ⟨_, _, hnumber, ⟨_, _, rfl, hidentities, hsources⟩, _⟩ := hkeeps.addIdentity hadded
    exact ⟨hsources, hidentities.trans hnumber⟩

/-- Where look-ups see anything, the snapshot is the ledger. -/
theorem Catalog.Keeps.contents_eq_ok {catalog : Catalog} {ledger : List Identity}
    (hkeeps : catalog.Keeps ledger) (hvisible : catalog.access ≠ .blind) :
    catalog.contents = .ok (ledger.map Identity.asStored) := by
  rw [hkeeps.contents, demandVisible, if_neg hvisible]
  rfl

/-- A committed import was resolved over the ledger. -/
theorem Importer.Commits.resolution_eq {importer : Importer} {job : ImportJob} {world : World}
    {ledger : List Identity} (hkeeps : world.catalog.Keeps ledger) {decoded : Decoded}
    {resolution : Resolution} {id : IdentityId} {effect : CommitEffect} {catalog : Catalog}
    (hcommits : importer.Commits job world decoded resolution id effect catalog) :
    world.catalog.access ≠ .blind ∧
      resolution = resolutionIn ledger decoded.digest decoded.key job.handling.careful :=
  hkeeps.eq_resolutionIn_of_identify hcommits.identified

/-- What a commit does to the snapshot and to the tickets. -/
theorem Importer.Commits.contents {importer : Importer} {job : ImportJob} {world : World}
    {ledger : List Identity} (hkeeps : world.catalog.Keeps ledger) {decoded : Decoded}
    {resolution : Resolution} {id : IdentityId} {effect : CommitEffect} {catalog : Catalog}
    (hcommits : importer.Commits job world decoded resolution id effect catalog) :
    let deposit := job.deposit decoded world.now
    ∃ before after,
      world.catalog.contents = .ok before ∧ catalog.contents = .ok after ∧
      (effect = .inserted ↔ resolution.verdict = .new ∨
        ∃ candidates, resolution.verdict = .ambiguous candidates) ∧
      (effect = .inserted →
        (∀ identity ∈ before, identity.id.value < id.value) ∧
        after = before ++ [(deposit.draft.entry id [deposit.source] world.now).asStored]) ∧
      (effect = .attached →
        resolution.verdict.matched = some id ∧ (∃ identity ∈ before, identity.id = id) ∧
        after = extendEntry before id deposit.source.asStored (some decoded.metadata)) ∧
      (resolution.digestOnly = true ↔ job.handling.careful = true ∧ decoded.key = none ∧
        ∀ identity ∈ before, identity.digest ≠ decoded.digest) := by
  intro deposit
  obtain ⟨hvisible, hresolution⟩ := hcommits.resolution_eq hkeeps
  obtain ⟨⟨identities, sources, hcatalog⟩, hwritten⟩ :=
    ImportJob.write_cases hkeeps hcommits.written
  have haccess : catalog.access ≠ .blind := by
    rw [hcatalog]
    exact hvisible
  have hdigestOnly : resolution.digestOnly = true ↔ job.handling.careful = true ∧
      decoded.key = none ∧
        ∀ identity ∈ ledger.map Identity.asStored, identity.digest ≠ decoded.digest := by
    rw [hresolution, digestOnly_resolutionIn]
    simp only [List.forall_mem_map, Identity.asStored]
  rcases hwritten with ⟨rfl, hmatched, -, -, hkept⟩ | ⟨rfl, hmatched, hid, hkept⟩
  · refine ⟨_, _, hkeeps.contents_eq_ok hvisible, hkept.contents_eq_ok haccess,
      iff_of_true rfl (resolution.verdict.matched_eq_none_iff.mp hmatched), ?_,
      fun h => absurd h (by decide), hdigestOnly⟩
    intro _
    refine ⟨?_, List.map_append⟩
    rw [List.forall_mem_map]
    intro identity hmem
    exact ImportJob.lt_of_inserted hkeeps hcommits.written rfl _ (hkeeps.mem_rows hmem)
  · refine ⟨_, _, hkeeps.contents_eq_ok hvisible, hkept.contents_eq_ok haccess, ?_,
      fun h => absurd h (by decide), ?_, hdigestOnly⟩
    · rw [← Verdict.matched_eq_none_iff, hmatched]
      exact iff_of_false (by decide) (Option.some_ne_none id)
    · intro _
      obtain ⟨identity, hmem, hsame⟩ := hid
      exact ⟨hmatched, ⟨identity.asStored, List.mem_map_of_mem hmem, hsame⟩,
        map_asStored_extendEntry ..⟩

end AudioCatalog
