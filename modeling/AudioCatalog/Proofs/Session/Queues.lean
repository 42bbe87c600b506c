import AudioCatalog.Proofs.FileSystem.Clearing
import AudioCatalog.Proofs.Session.Batches
import AudioCatalog.Proofs.Session.Effect
import AudioCatalog.Proofs.Session.Reimport

/-!
# Tickets of importable files

A single worker commits every ticket whose path name still leads to its file when its turn comes.
If files are kept, this is every ticket of importable files.  If files are removed, a ticket can
lose its file to an earlier one, most simply to one with the same path name, and fails before
anything is decoded.

The tickets are followed one by one.  What has to be known of the world between two of them is
that the catalog is ready for the rest (`Catalog.ReadyFor`), and which path names have been used
to remove files (`FileSystem.Cleared`).
-/

namespace AudioCatalog

/-! ## Importable files -/

/-- Whether a path name leads to a file that is admitted and can be decoded. -/
def Importer.CanImport (importer : Importer) (world : World) (path : Pathname) : Prop :=
  ∃ decoded : Decoded, world.admit path = .ok (.ok decoded.facts) ∧
    importer.decode world path decoded.facts = .ok decoded

/-- What is admitted is not a directory. -/
theorem World.exists_open_of_admit {world : World} {path : Pathname} {facts : FileFacts}
    (h : world.admit path = .ok (.ok facts)) :
    path.text?.isNone = false ∧
      ∃ node, world.files.open? path = .ok node ∧ node.isDirectory = false := by
  unfold World.admit at h
  split at h
  · cases h
  · rename_i htext
    refine ⟨Bool.eq_false_iff.mpr htext, ?_⟩
    split at h
    · cases h
    · rename_i node hopen
      refine ⟨node, hopen, ?_⟩
      cases node with
      | file body modified => rfl
      | directory entries => cases h
      | link target => cases h
      | special => cases h

/-- Admission sees nothing of the files but what the path name leads to. -/
theorem World.admit_congr {world next : World} {path : Pathname}
    (hopen : next.files.open? path = world.files.open? path) :
    next.admit path = world.admit path := by
  unfold World.admit
  rw [hopen]

/-- What is not there is not admitted. -/
theorem World.admit_of_notFound {world : World} {path : Pathname}
    (htext : path.text?.isNone = false) (hopen : world.files.open? path = .error .notFound) :
    world.admit path = .error (.io .notFound) := by
  unfold World.admit
  simp only [htext, Bool.false_eq_true, if_false, hopen]

/-- Decoding sees nothing of the files but what the path name leads to. -/
theorem FileSystem.read_congr {files next : FileSystem Catalog} {path : Pathname}
    (hopen : next.open? path = files.open? path) : next.read path = files.read path := by
  rw [read, read, hopen]

theorem Importer.CanImport.congr {importer : Importer} {world next : World} {path : Pathname}
    (hcan : importer.CanImport world path)
    (hopen : next.files.open? path = world.files.open? path) : importer.CanImport next path := by
  obtain ⟨decoded, hadmitted, hdecodes⟩ := hcan
  refine ⟨decoded, (World.admit_congr hopen).trans hadmitted, ?_⟩
  rw [decode, FileSystem.read_congr hopen]
  exact hdecodes

/-! ## Catalogs that are open for imports -/

/-- Whether a catalog can take a number of imports: look-ups see it, nobody else holds its lock
or forbids to write, and there are numbers for the rows. -/
structure Catalog.ReadyFor (catalog : Catalog) (count : Nat) : Prop where
  sound : catalog.Sound
  visible : catalog.access ≠ .blind
  writable : catalog.access ≠ .readOnly
  unlocked : catalog.locked = false
  identities : catalog.identities.greatestId + count ≤ Table.idLimit
  sources : catalog.sources.greatestId + count ≤ Table.idLimit

theorem Catalog.ReadyFor.mono {catalog : Catalog} {count fewer : Nat}
    (hready : catalog.ReadyFor count) (hle : fewer ≤ count) : catalog.ReadyFor fewer where
  sound := hready.sound
  visible := hready.visible
  writable := hready.writable
  unlocked := hready.unlocked
  identities := by
    have hroom := hready.identities
    omega
  sources := by
    have hroom := hready.sources
    omega

/-- After a commit a catalog can take one import less. -/
theorem Catalog.ReadyFor.commit {world : World} {count : Nat}
    (hready : world.catalog.ReadyFor (count + 1)) {job : ImportJob} {decoded : Decoded}
    {resolution : Resolution} {id : IdentityId} {effect : CommitEffect} {catalog : Catalog}
    (h : job.write world decoded resolution = .ok (id, effect, catalog)) :
    catalog.ReadyFor count ∧
      catalog.tickets = world.catalog.tickets.afterCommit job.ticket id world.now := by
  have ⟨ledger, hkeeps, _, _⟩ := hready.sound
  obtain ⟨⟨_, _, hcatalog⟩, -⟩ := ImportJob.write_cases hkeeps h
  obtain ⟨hsources, hidentities⟩ := ImportJob.greatestId_write hkeeps h
  have hroom := hready.identities
  have hroom' := hready.sources
  refine ⟨⟨hready.sound.write (ImportJob.write_of_write h), ?_, ?_, ?_, ?_, ?_⟩, ?_⟩
  · rw [hcatalog]
    exact hready.visible
  · rw [hcatalog]
    exact hready.writable
  · rw [hcatalog]
    exact hready.unlocked
  · rw [hidentities]
    split <;> omega
  · omega
  · rw [hcatalog]

namespace Importer

variable (importer : Importer) (handling : Handling)

/-! ## One ticket -/

/-- The import for a ticket of an importable file is committed, and removes the file unless it
is to be kept. -/
theorem run_replay_of_canImport {world : World} {ticket : Ticket} {count : Nat}
    (hready : world.catalog.ReadyFor (count + 1)) (hcan : importer.CanImport world ticket.path)
    (hticket : (world.catalog.tickets.row? ticket.id.value).isSome) :
    ∃ catalog files receipt,
      importer.run (.replay ticket handling none) world =
        ({ world with catalog := catalog, files := files }, .ok (.committed receipt)) ∧
      catalog.ReadyFor count ∧
      catalog.tickets =
        world.catalog.tickets.afterCommit (some ticket.id) receipt.identity world.now ∧
      (handling.keepFile = true → files = world.files) ∧
      (handling.keepFile = false → world.files.removeImported ticket.path = .ok files) := by
  obtain ⟨decoded, hadmitted, hdecodes⟩ := hcan
  have ⟨ledger, hkeeps, _, _⟩ := hready.sound
  have hroom := hready.identities
  have hroom' := hready.sources
  have haccepted : Errand.Accepted ⟨importer, .replay ticket handling none⟩ world decoded := by
    refine ⟨hadmitted, rfl, hdecodes, hready.visible, hready.unlocked, hready.writable, ?_⟩
    intro id hid
    cases hid
    exact hticket
  obtain ⟨id, effect, catalog, hcommits⟩ :=
    Errand.exists_commits hkeeps haccepted (fun _ => by omega) (by omega)
  obtain ⟨hnext, htickets⟩ := hready.commit hcommits.written
  have hrun := importer.run_of_commits _ hcommits rfl
  obtain ⟨files, removed, hcleared, hgone, hthere⟩ :=
    (ImportJob.replay ticket handling none).cleared_eq { world with catalog := catalog }
      ((ImportJob.replay ticket handling none).receipt decoded _ id effect) rfl
  rw [hcleared] at hrun
  refine ⟨catalog, files, _, hrun, hnext, htickets, fun hkeep => ?_, fun hkeep => ?_⟩
  · cases removed with
    | false => exact (hthere rfl).1
    | true => exact absurd (hkeep.symm.trans (hgone rfl).1) (by decide)
  · obtain ⟨-, node, hopen, hleaf⟩ := World.exists_open_of_admit hadmitted
    obtain ⟨location, _, -, -, hremoved⟩ := FileSystem.exists_removes hopen hleaf
    cases removed with
    | true => exact (hgone rfl).2
    | false =>
        rcases (hthere rfl).2 with hkept | ⟨cause, herror⟩
        · exact absurd (hkept.symm.trans hkeep) (by decide)
        · exact absurd (hremoved.symm.trans herror) (by simp)

/-- The import for a ticket without a file fails before anything is decoded. -/
theorem run_replay_of_notFound {world : World} {ticket : Ticket}
    (htext : ticket.path.text?.isNone = false)
    (hopen : world.files.open? ticket.path = .error .notFound) :
    importer.run (.replay ticket handling none) world =
      (world, .error ⟨ticket.path, .started, .io .notFound⟩) := by
  have hadmission : world.admit (ImportJob.replay ticket handling none).path =
      .error (.io .notFound) := World.admit_of_notFound htext hopen
  rw [run_eq, hadmission]
  rfl

end Importer

/-! ## Tickets one after the other -/

/-- The path names by which the tickets of a batch have removed files. -/
def removedPaths (handling : Handling) (entries : List BatchEntry) : List Pathname :=
  if handling.keepFile then [] else (entries.filter (·.isCommitted)).map (·.ticket.path)

theorem removedPaths_cons (handling : Handling) (entry : BatchEntry) (entries : List BatchEntry) :
    removedPaths handling (entry :: entries) =
      removedPaths handling [entry] ++ removedPaths handling entries := by
  cases hkeep : handling.keepFile with
  | true => simp [removedPaths, hkeep]
  | false => cases hcommitted : entry.isCommitted <;> simp [removedPaths, hkeep, hcommitted]

theorem exists_of_mem_removedPaths {handling : Handling} {entries : List BatchEntry}
    {path : Pathname} (h : path ∈ removedPaths handling entries) :
    ∃ entry ∈ entries, entry.ticket.path = path := by
  rw [removedPaths] at h
  split at h
  · cases h
  · obtain ⟨entry, hentry, heq⟩ := List.mem_map.mp h
    exact ⟨entry, List.mem_of_mem_filter hentry, heq⟩

/-- Whether a ticket came to its end as it had to: committed, unless its file was removed by one
of some path names, and else failed for want of a file. -/
def BatchEntry.EndsBy (entry : BatchEntry) (files : FileSystem Catalog) (paths : List Pathname) :
    Prop :=
  ((∃ path ∈ paths, files.Takes path entry.ticket.path) →
      entry.conclusion = .error ⟨entry.ticket.path, .started, .io .notFound⟩) ∧
    ((∀ path ∈ paths, ¬ files.Takes path entry.ticket.path) → entry.isCommitted = true)

theorem BatchEntry.EndsBy.congr {entry : BatchEntry} {files : FileSystem Catalog}
    {paths others : List Pathname} (h : entry.EndsBy files paths)
    (hsame : ∀ path, path ∈ others ↔ path ∈ paths) : entry.EndsBy files others := by
  simpa only [EndsBy, hsame] using h

namespace Importer

variable (importer : Importer) (handling : Handling)

/-- One ticket of a batch that began in another world. -/
theorem step_replay {start world : World} (hproper : start.files.Proper) {ticket : Ticket}
    (hcan : importer.CanImport start ticket.path) {paths : List Pathname}
    (hcleared : start.files.Cleared paths world.files) {count : Nat}
    (hready : world.catalog.ReadyFor (count + 1))
    (hrow : (world.catalog.tickets.row? ticket.id.value).isSome) :
    let ended := importer.run (.replay ticket handling none) world
    let entry : BatchEntry := ⟨ticket, ended.2⟩
    entry.EndsBy start.files paths ∧
      start.files.Cleared (removedPaths handling [entry] ++ paths) ended.1.files ∧
      ended.1.catalog.ReadyFor count ∧
      ∀ id, (world.catalog.tickets.row? id).isSome → (ended.1.catalog.tickets.row? id).isSome := by
  obtain ⟨decoded, hadmitted, hdecodes⟩ := hcan
  obtain ⟨htext, node, hopen, hleaf⟩ := World.exists_open_of_admit hadmitted
  obtain ⟨hgone, hthere⟩ := hcleared.open?_eq hproper hopen hleaf
  by_cases htaken : ∃ path ∈ paths, start.files.Takes path ticket.path
  · rw [importer.run_replay_of_notFound handling htext (hgone htaken)]
    refine ⟨⟨fun _ => rfl, fun hnone => ?_⟩, ?_, hready.mono (Nat.le_succ _), fun _ => id⟩
    · obtain ⟨path, hpath, htakes⟩ := htaken
      exact absurd htakes (hnone path hpath)
    · simpa [removedPaths, BatchEntry.isCommitted, Conclusion.receipt?] using hcleared
  · have hnow : world.files.open? ticket.path = start.files.open? ticket.path := by
      rw [hopen]
      exact hthere fun path hpath htakes => htaken ⟨path, hpath, htakes⟩
    have hcan : importer.CanImport world ticket.path :=
      CanImport.congr ⟨decoded, hadmitted, hdecodes⟩ hnow
    obtain ⟨catalog, files, receipt, hrun, hnext, htickets, hkept, hremoved⟩ :=
      importer.run_replay_of_canImport handling hready hcan hrow
    rw [hrun]
    refine ⟨⟨fun h => absurd h htaken, fun _ => rfl⟩, ?_, hnext, fun id hid => ?_⟩
    · cases hkeep : handling.keepFile with
      | true =>
          rw [hkept hkeep]
          simpa [removedPaths, hkeep] using hcleared
      | false =>
          have hcommitted : (BatchEntry.mk ticket (.ok (.committed receipt))).isCommitted = true :=
            rfl
          simp only [removedPaths, hkeep, Bool.false_eq_true, if_false,
            List.filter_cons_of_pos hcommitted]
          obtain ⟨_, _, hfind, -⟩ := FileSystem.exists_removes (hnow.trans hopen) hleaf
          exact .remove hcleared hopen hleaf hfind (hremoved hkeep)
    · rw [htickets, Table.row?_afterCommit]
      split
      · rw [Option.isSome_map]
        exact hid
      · exact hid

/-- A ticket of importable files is committed unless its file was removed by one of the path
names so far. -/
theorem endsBy_replayAlone {start : World} (hproper : start.files.Proper) {tickets : List Ticket}
    (hcan : ∀ ticket ∈ tickets, importer.CanImport start ticket.path) :
    ∀ {world : World} {paths : List Pathname}, start.files.Cleared paths world.files →
      world.catalog.ReadyFor tickets.length →
      (∀ ticket ∈ tickets, (world.catalog.tickets.row? ticket.id.value).isSome) →
      ∀ {before : List BatchEntry} {entry : BatchEntry} {after : List BatchEntry},
        (importer.replayAlone handling tickets world).2 = before ++ entry :: after →
        entry.EndsBy start.files (removedPaths handling before ++ paths) := by
  induction tickets with
  | nil =>
      intro world paths _ _ _ before entry after hentries
      exact absurd (congrArg List.length hentries) (by simp [replayAlone, replayInTurn])
  | cons ticket tickets ih =>
      intro world paths hcleared hready hrows before entry after hentries
      obtain ⟨hends, hnext, hless, hkept⟩ := importer.step_replay handling hproper
        (hcan ticket List.mem_cons_self) hcleared hready (hrows ticket List.mem_cons_self)
      rw [replayAlone_cons] at hentries
      cases before with
      | nil =>
          cases hentries
          simpa [removedPaths] using hends
      | cons first before =>
          rw [List.cons_append, List.cons.injEq] at hentries
          obtain ⟨rfl, hentries⟩ := hentries
          have hrest := ih (fun other hother => hcan other (List.mem_cons_of_mem _ hother)) hnext
            hless (fun other hother => hkept _ (hrows other (List.mem_cons_of_mem _ hother)))
            hentries
          refine hrest.congr fun path => ?_
          rw [removedPaths_cons]
          simp only [List.mem_append, or_left_comm, or_assoc]

end Importer

/-- If no ticket of a batch removes the file of a later one, all of them are committed. -/
theorem isCommitted_of_endsBy {files : FileSystem Catalog} {handling : Handling}
    {entries : List BatchEntry}
    (hends : ∀ before entry after, entries = before ++ entry :: after →
      entry.EndsBy files (removedPaths handling before))
    (hapart : (entries.map (·.ticket)).Pairwise
      fun earlier later => ¬ files.Takes earlier.path later.path) :
    ∀ entry ∈ entries, entry.isCommitted = true := by
  intro entry hentry
  obtain ⟨before, after, hsplit⟩ := List.append_of_mem hentry
  apply (hends before entry after hsplit).2
  intro path hpath htakes
  obtain ⟨earlier, hearlier, rfl⟩ := exists_of_mem_removedPaths hpath
  rw [hsplit, List.map_append, List.map_cons, List.pairwise_append] at hapart
  exact hapart.2.2 _ (List.mem_map_of_mem hearlier) _ List.mem_cons_self htakes

end AudioCatalog
