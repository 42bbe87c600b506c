import AudioCatalog.Catalog.Storage
import AudioCatalog.Proofs.FileSystem.Frame
import AudioCatalog.Proofs.Results

/-!
# Closing and opening a catalog again

Closing a catalog puts its tables into its file.  Opening the file again gives these tables
back, and whether that succeeds or not, they are still in the file afterwards.  What happens
beside the file (the journal, the log and its index, the directories above) does not matter.
-/

namespace AudioCatalog

/-- Whether two catalogs have the same tables. -/
structure Catalog.SameTables (a b : Catalog) : Prop where
  identities : a.identities = b.identities
  sources : a.sources = b.sources
  tickets : a.tickets = b.tickets

namespace Catalog.SameTables

theorem refl (catalog : Catalog) : catalog.SameTables catalog :=
  ⟨rfl, rfl, rfl⟩

theorem symm {a b : Catalog} (h : a.SameTables b) : b.SameTables a :=
  ⟨h.identities.symm, h.sources.symm, h.tickets.symm⟩

theorem trans {a b c : Catalog} (hab : a.SameTables b) (hbc : b.SameTables c) : a.SameTables c :=
  ⟨hab.identities.trans hbc.identities, hab.sources.trans hbc.sources,
    hab.tickets.trans hbc.tickets⟩

end Catalog.SameTables

theorem Catalog.sameTables_of_prepare {catalog prepared : Catalog}
    (h : catalog.prepare = .ok prepared) : prepared.SameTables catalog := by
  rw [prepare] at h
  split at h
  · cases h
  · split at h
    · cases h
    · cases h
      exact ⟨rfl, rfl, rfl⟩

namespace FileSystem

/-- Whether the file at a location holds a database with the tables of a catalog. -/
def Stores (files : FileSystem Catalog) (location : Location) (catalog : Catalog) : Prop :=
  ∃ stored pages modified,
    files.node? location = some (.file (.database stored pages) modified) ∧
      stored.SameTables catalog

variable {files next : FileSystem Catalog} {location : Location} {catalog : Catalog}

theorem Stores.mono (hstores : files.Stores location catalog)
    (hframe : ∀ node, files.node? location = some node → node.isDirectory = false →
      next.node? location = some node) : next.Stores location catalog := by
  obtain ⟨stored, pages, modified, hnode, hsame⟩ := hstores
  exact ⟨stored, pages, modified, hframe _ hnode rfl, hsame⟩

theorem Stores.sameTables {other : Catalog} (hstores : files.Stores location catalog)
    (hsame : catalog.SameTables other) : files.Stores location other := by
  obtain ⟨stored, pages, modified, hnode, hstored⟩ := hstores
  exact ⟨stored, pages, modified, hnode, hstored.trans hsame⟩

theorem Stores.location_ne_nil (hstores : files.Stores location catalog) : location ≠ [] := by
  rintro rfl
  obtain ⟨_, _, _, hnode, _⟩ := hstores
  cases hnode

/-! ## Beside the file -/

theorem not_covers_beside {ending : String} (hending : Utf8.encode ending ≠ [])
    (location : Location) : location = [] ∨ ¬ Covers (beside location ending) location := by
  cases location with
  | nil => exact .inl rfl
  | cons name directory =>
      refine .inr fun hcovers => ?_
      rw [Covers, beside, List.reverse_cons, List.reverse_cons] at hcovers
      have hsame := hcovers.eq_of_length (by simp)
      simp [hending] at hsame

theorem Stores.erase_beside (hstores : files.Stores location catalog) {ending : String}
    (hending : Utf8.encode ending ≠ []) :
    (files.erase (beside location ending)).Stores location catalog :=
  hstores.mono fun _ hnode hleaf => node?_erase_of_not_covers hnode hleaf
    ((not_covers_beside hending location).resolve_left hstores.location_ne_nil)

theorem Stores.finishJournal (hstores : files.Stores location catalog)
    (h : files.finishJournal location = .ok next) : next.Stores location catalog := by
  rw [FileSystem.finishJournal] at h
  split at h
  · cases h
    exact hstores
  · split at h
    · cases h
    · cases h
      split
      · exact hstores
      · exact hstores.erase_beside (by decide)
    · cases h

theorem Stores.openLog (hstores : files.Stores location catalog) {access : Access}
    (h : files.openLog location = .ok (next, access)) : next.Stores location catalog := by
  rw [FileSystem.openLog] at h
  split at h
  · cases h
  · split at h
    · cases h
      exact hstores
    · cases h
    · cases h
      exact (hstores.erase_beside (by decide)).erase_beside (by decide)

theorem Stores.prepareLog (hstores : files.Stores location catalog) {name : DatabaseName}
    {logged : Bool} {access : Access}
    (h : files.prepareLog location name logged = .ok (next, access)) :
    next.Stores location catalog := by
  obtain ⟨finished, hfinished, h⟩ := bind_eq_ok_iff.mp h
  have hstores := hstores.finishJournal hfinished
  split at h
  · simp only at h
    by_cases hreading : (!logged) = true ∧ name.mode = .readOnly
    · rw [if_pos hreading] at h
      cases h
    · rw [if_neg hreading] at h
      by_cases hjournal : (!logged) = true ∧ (!finished.takesJournal location) = true
      · rw [if_pos hjournal] at h
        cases h
      · rw [if_neg hjournal] at h
        obtain ⟨⟨opened, allowed⟩, hopened, h⟩ := bind_eq_ok_iff.mp h
        cases h
        exact hstores.openLog hopened
  · by_cases hlogged : logged = true ∨ finished.occupied (logOf location) = true
    · rw [if_pos hlogged] at h
      cases h
    · rw [if_neg hlogged] at h
      cases h
      exact hstores

/-! ## Opening and closing -/

theorem stores_save (hstores : files.Stores location catalog) (next : Catalog) (pages : Nat)
    (now : Timestamp) : (files.save location next pages now).Stores location next := by
  have hlocation := hstores.location_ne_nil
  obtain ⟨stored, _, _, hnode, _⟩ := hstores
  exact ⟨_, pages, now, node?_put_self hnode hlocation _, ⟨rfl, rfl, rfl⟩⟩

/-- An attempt to open a database leaves its tables in its file, and gives these tables if
it succeeds. -/
structure Reopens (location : Location) (catalog : Catalog)
    (opened : FileSystem Catalog × Except Error Catalog) : Prop where
  stores : opened.1.Stores location catalog
  tables : ∀ result, opened.2 = .ok result → result.SameTables catalog

theorem Reopens.of_error (hstores : files.Stores location catalog) (error : Error) :
    Reopens location catalog (files, .error error) :=
  ⟨hstores, fun _ h => nomatch h⟩

theorem reopens_openExisting (hstores : files.Stores location catalog) {stored : Catalog}
    (hsame : stored.SameTables catalog) (name : DatabaseName) (pages : Nat) (now : Timestamp) :
    Reopens location catalog (files.openExisting location name stored pages now) := by
  rw [openExisting]
  split
  · refine ⟨hstores, fun result hresult => ?_⟩
    have htables : Catalog.SameTables { stored with access := .readOnly } stored := ⟨rfl, rfl, rfl⟩
    exact ((Catalog.sameTables_of_prepare hresult).trans htables).trans hsame
  · split
    · exact .of_error hstores _
    · rename_i prepared access hprepared
      have hstores := hstores.prepareLog hprepared
      split
      · exact .of_error hstores _
      · rename_i result hresult
        have htables : Catalog.SameTables
            { stored with access := access, logged := name.guarded } stored := ⟨rfl, rfl, rfl⟩
        have hresult := ((Catalog.sameTables_of_prepare hresult).trans htables).trans hsame
        refine ⟨(stores_save hstores result pages now).sameTables hresult, ?_⟩
        rintro _ ⟨⟩
        exact hresult

theorem reopens_openFile (hstores : files.Stores location catalog) (path : Pathname)
    (name : DatabaseName) (now : Timestamp) :
    Reopens location catalog (files.openFile path name location now) := by
  rw [openFile]
  split
  · exact .of_error hstores _
  · obtain ⟨stored, pages, modified, hnode, hsame⟩ := id hstores
    have hholding : files.holding? location name.mode = some (.catalog stored pages) := by
      rw [holding?, hnode]
    rw [hholding]
    exact reopens_openExisting hstores hsame name pages now

/-- Whether a path name, as the name of a database, leads to no file but one. -/
def LeadsOnlyTo (files : FileSystem Catalog) (path : Pathname) (location : Location) : Prop :=
  ∀ above name other, files.createParents path = .ok above →
    DatabaseName.parse .create path = .ok name → name.isPrivate = false →
      above.databaseLocation? name.file = some other → other = location

theorem Stores.createParents (hstores : files.Stores location catalog) {path : Pathname}
    (h : files.createParents path = .ok next) : next.Stores location catalog := by
  rw [FileSystem.createParents] at h
  split at h
  · exact hstores.mono fun _ hnode hleaf => node?_createDirectoryAll hnode hleaf h
  · cases h
    exact hstores

/-- An attempt to open a catalog leaves the tables of one database in its file, and what it
gives, if that is kept in a file, are these tables. -/
structure Reattaches (location : Location) (catalog : Catalog)
    (attached : FileSystem Catalog × Except Error (Storage × Catalog)) : Prop where
  stores : attached.1.Stores location catalog
  tables : ∀ other guarded result, attached.2 = .ok (.file other guarded, result) →
    other = location ∧ result.SameTables catalog

theorem Reattaches.of_error (hstores : files.Stores location catalog) (error : Error) :
    Reattaches location catalog (files, .error error) :=
  ⟨hstores, fun _ _ _ h => nomatch h⟩

theorem reattaches_connect (hstores : files.Stores location catalog) (path : Pathname)
    {name : DatabaseName}
    (hleads : ∀ other, name.isPrivate = false → files.databaseLocation? name.file = some other →
      other = location) (now : Timestamp) :
    Reattaches location catalog (files.connect path name now) := by
  rw [connect]
  split
  · refine ⟨hstores, fun other guarded result h => ?_⟩
    simp only at h
    split at h
    · cases h
    · split at h
      · cases h
      · cases h
  · rename_i hpublic
    cases hother : files.databaseLocation? name.file with
    | none => exact .of_error hstores _
    | some other =>
        have heq := hleads other (by simpa using hpublic) hother
        subst heq
        obtain ⟨hstored, htables⟩ := reopens_openFile hstores path name now
        refine ⟨hstored, fun found guarded result h => ?_⟩
        obtain ⟨opened, hopened, h⟩ := map_eq_ok_iff.mp h
        cases h
        exact ⟨rfl, htables _ hopened⟩

/-- Closing puts the tables into the file that is in place. -/
theorem stores_closeCatalog {stored : Catalog} (hstores : files.Stores location stored)
    (catalog : Catalog) (guarded : Bool) :
    (files.closeCatalog (.file location guarded) catalog).Stores location catalog := by
  obtain ⟨_, _, modified, hnode, _⟩ := id hstores
  rw [closeCatalog, hnode]
  exact stores_save hstores catalog _ _

theorem Reattaches.closeCatalog {storage : Storage} {result : Catalog}
    (hattached : Reattaches location catalog (files, .ok (storage, result))) :
    (files.closeCatalog storage result).Stores location catalog := by
  cases storage with
  | file other guarded =>
      obtain ⟨rfl, hsame⟩ := hattached.tables other guarded result rfl
      exact (stores_closeCatalog hattached.stores result guarded).sameTables hsame
  | memory name => exact hattached.stores
  | exclusive => exact hattached.stores

theorem sameTables_of_addReaders {path : Pathname} {readers : Nat} {storage : Storage}
    {result : Catalog} (h : addReaders path readers storage catalog = .ok result) :
    result.SameTables catalog := by
  rw [addReaders] at h
  split at h
  · cases h
    exact .refl _
  · split at h
    · cases h
    · cases h
      split
      · exact ⟨rfl, rfl, rfl⟩
      · exact .refl _

/-- Whether it succeeds or not, an attempt to open the catalog leaves its tables in place,
and gives them if it succeeds. -/
theorem reattaches_openCatalog (hstores : files.Stores location catalog) {path : Pathname}
    (hleads : files.LeadsOnlyTo path location) (readers : Nat) (now : Timestamp) :
    Reattaches location catalog (files.openCatalog path readers now) := by
  rw [openCatalog]
  cases habove : files.createParents path with
  | error cause => exact .of_error hstores _
  | ok above =>
      have hstores := hstores.createParents habove
      simp only
      split
      · exact .of_error hstores _
      · cases hname : DatabaseName.parse .create path with
        | error fault => exact .of_error hstores _
        | ok name =>
            have hconnect := reattaches_connect hstores path (hleads above name · habove hname) now
            simp only
            generalize above.connect path name now = connected at hconnect
            obtain ⟨left, attached⟩ := connected
            cases attached with
            | error error => exact .of_error hconnect.stores _
            | ok attached =>
                obtain ⟨storage, found⟩ := attached
                simp only
                cases hreaders : addReaders path readers storage found with
                | error error => exact .of_error hconnect.closeCatalog _
                | ok result =>
                    refine ⟨hconnect.stores, fun other guarded given h => ?_⟩
                    cases h
                    obtain ⟨heq, hsame⟩ := hconnect.tables other guarded found rfl
                    exact ⟨heq, (sameTables_of_addReaders hreaders).trans hsame⟩

end FileSystem

end AudioCatalog
