import AudioCatalog.FileSystem.Basic

/-!
# What file operations leave alone

A change at one location leaves every file alone that is at another one.  Where directories
are made there was nothing before, so making them leaves all files alone.
-/

namespace AudioCatalog

variable {κ : Type}

namespace Directory

/-! ## Paths, the outermost name first -/

theorem descend?_cons (directory : Directory κ) (name : Name) {rest : List Name}
    (hrest : rest ≠ []) :
    directory.descend? (name :: rest) =
      match directory.child? name with
      | some (.directory inner) => descend? inner rest
      | _ => none := by
  cases rest with
  | nil => exact absurd rfl hrest
  | cons next rest => rfl

theorem descendAlter_cons (change : Option (Node κ) → Option (Node κ)) (directory : Directory κ)
    (name : Name) {rest : List Name} (hrest : rest ≠ []) :
    descendAlter change (name :: rest) directory =
      alterChild name (fun
        | some (.directory inner) => some (.directory (descendAlter change rest inner))
        | other => other) directory := by
  cases rest with
  | nil => exact absurd rfl hrest
  | cons next rest => rfl

/-- What a change makes of a name that stays is found there. -/
theorem child?_alterChild_self (directory : Directory κ) (name : Name)
    (change : Option (Node κ) → Option (Node κ)) {node : Node κ}
    (h : change (directory.child? name) = some node) :
    child? (alterChild name change directory) name = some node := by
  fun_induction alterChild name change directory with
  | case1 => simp_all [child?]
  | case2 present rest =>
      have hpresent : change (some present) = some node := by simpa [child?] using h
      simp [child?, hpresent]
  | case3 other present rest hne ih =>
      have hrest : change (child? rest name) = some node := by simpa [child?, hne] using h
      simpa [child?, hne] using ih hrest

theorem descend?_congr {a b : Directory κ} {name : Name} (h : a.child? name = b.child? name)
    (rest : List Name) : a.descend? (name :: rest) = b.descend? (name :: rest) := by
  cases rest with
  | nil => exact h
  | cons next rest =>
      rw [descend?_cons a name (List.cons_ne_nil _ _),
        descend?_cons b name (List.cons_ne_nil _ _), h]

/-- A path below a directory goes on in the directory. -/
theorem descend?_eq_some_of_cons {directory : Directory κ} {name : Name} {rest : List Name}
    {node : Node κ} (hrest : rest ≠ []) (h : directory.descend? (name :: rest) = some node) :
    ∃ inner, directory.child? name = some (.directory inner) ∧ descend? inner rest = some node := by
  rw [descend?_cons directory name hrest] at h
  split at h
  · rename_i inner hchild
    exact ⟨inner, hchild, h⟩
  · cases h

/-- A change at one path leaves a node alone that is not a directory, unless the path leads
to the node or to a directory above it. -/
theorem descend?_descendAlter (change : Option (Node κ) → Option (Node κ)) (path : List Name) :
    ∀ (directory : Directory κ) (other : List Name) {node : Node κ},
      directory.descend? other = some node → node.isDirectory = false → ¬ path <+: other →
        (descendAlter change path directory).descend? other = some node := by
  induction path with
  | nil =>
      intro directory other node _ _ hprefix
      exact absurd (List.nil_prefix) hprefix
  | cons name rest ih =>
      intro directory other node hfound hleaf hprefix
      cases other with
      | nil =>
          cases hfound
          cases hleaf
      | cons first other =>
          by_cases hfirst : name = first
          · subst hfirst
            have hrest : rest ≠ [] := by
              rintro rfl
              exact hprefix (by simp)
            rw [descendAlter_cons change directory name hrest]
            cases other with
            | nil =>
                have hchild : directory.child? name = some node := hfound
                refine child?_alterChild_self directory name _ ?_
                rw [hchild]
                cases node with
                | directory entries => cases hleaf
                | file body modified => rfl
                | link target => rfl
                | special => rfl
            | cons second other =>
                obtain ⟨inner, hchild, hinner⟩ :=
                  descend?_eq_some_of_cons (List.cons_ne_nil _ _) hfound
                have hinside := ih inner (second :: other) hinner hleaf fun h =>
                  hprefix (List.cons_prefix_cons.mpr ⟨rfl, h⟩)
                rw [descend?_cons _ name (List.cons_ne_nil _ _),
                  child?_alterChild_self directory name _ (by rw [hchild])]
                exact hinside
          · rw [← hfound]
            refine descend?_congr ?_ other
            cases rest with
            | nil => exact child?_alterChild_of_ne directory name first change hfirst
            | cons next rest =>
                rw [descendAlter_cons change directory name (List.cons_ne_nil _ _)]
                exact child?_alterChild_of_ne directory name first _ hfirst

/-- What is put where a node is, is found there. -/
theorem descend?_descendAlter_put (path : List Name) (replacement : Node κ) :
    ∀ (directory : Directory κ) {node : Node κ}, path ≠ [] → directory.descend? path = some node →
      (descendAlter (fun _ => some replacement) path directory).descend? path =
        some replacement := by
  induction path with
  | nil => exact fun _ _ h => absurd rfl h
  | cons name rest ih =>
      intro directory node _ hfound
      cases rest with
      | nil => exact child?_alterChild_put directory name replacement
      | cons next rest =>
          obtain ⟨inner, hchild, hinner⟩ := descend?_eq_some_of_cons (List.cons_ne_nil _ _) hfound
          have hinside := ih inner (List.cons_ne_nil _ _) hinner
          rw [descendAlter_cons _ directory name (List.cons_ne_nil _ _),
            descend?_cons _ name (List.cons_ne_nil _ _),
            child?_alterChild_self directory name _ (by rw [hchild])]
          exact hinside

/-- Something is on the way to what is there. -/
theorem descend?_ne_none_of_prefix (path : List Name) :
    ∀ (directory : Directory κ) (other : List Name) {node : Node κ}, path <+: other →
      directory.descend? other = some node → directory.descend? path ≠ none := by
  induction path with
  | nil =>
      intro directory other node _ _
      exact Option.some_ne_none _
  | cons name rest ih =>
      intro directory other node hprefix hfound
      obtain ⟨after, rfl⟩ := hprefix
      rw [List.cons_append] at hfound
      by_cases hrest : rest = []
      · subst hrest
        intro hnone
        have hchild : directory.child? name = none := hnone
        cases after with
        | nil => 
            have hfound : directory.child? name = some node := hfound
            rw [hchild] at hfound
            cases hfound
        | cons next after =>
            obtain ⟨inner, hfound, _⟩ := descend?_eq_some_of_cons (List.cons_ne_nil _ _) hfound
            rw [hchild] at hfound
            cases hfound
      · obtain ⟨inner, hchild, hinner⟩ := descend?_eq_some_of_cons (by simp [hrest]) hfound
        rw [descend?_cons directory name hrest, hchild]
        exact ih inner _ ⟨after, rfl⟩ hinner

theorem descend?_append_singleton (path : List Name) (name : Name) :
    ∀ (directory : Directory κ) {inner : Directory κ},
      directory.descend? path = some (.directory inner) →
        directory.descend? (path ++ [name]) = inner.child? name := by
  induction path with
  | nil =>
      intro directory inner hfound
      cases hfound
      rfl
  | cons first rest ih =>
      intro directory inner hfound
      rw [List.cons_append, descend?_cons directory first (by simp)]
      by_cases hrest : rest = []
      · subst hrest
        have hchild : directory.child? first = some (.directory inner) := hfound
        rw [hchild]
        rfl
      · obtain ⟨middle, hchild, hmiddle⟩ := descend?_eq_some_of_cons hrest hfound
        rw [hchild]
        exact ih middle hmiddle

end Directory

namespace FileSystem

/-! ## Files at other locations -/

variable {fs : FileSystem κ} {location other : Location} {node : Node κ}

/-- Whether a change at one location can reach another one: it is there or below. -/
def Covers (location other : Location) : Prop :=
  location.reverse <+: other.reverse

theorem node?_put_of_not_covers (hfound : fs.node? other = some node)
    (hleaf : node.isDirectory = false) (hcovers : ¬ Covers location other)
    (replacement : Node κ) : (fs.put location replacement).node? other = some node :=
  Directory.descend?_descendAlter _ _ _ _ hfound hleaf hcovers

theorem node?_erase_of_not_covers (hfound : fs.node? other = some node)
    (hleaf : node.isDirectory = false) (hcovers : ¬ Covers location other) :
    (fs.erase location).node? other = some node :=
  Directory.descend?_descendAlter _ _ _ _ hfound hleaf hcovers

theorem node?_put_self (hfound : fs.node? location = some node) (hlocation : location ≠ [])
    (replacement : Node κ) : (fs.put location replacement).node? location = some replacement :=
  Directory.descend?_descendAlter_put _ _ _ (by simpa using hlocation) hfound

/-- Where nothing is, there is nothing below either. -/
theorem not_covers_of_absent (hfound : fs.node? other = some node)
    (habsent : fs.node? location = none) : ¬ Covers location other := fun hcovers =>
  Directory.descend?_ne_none_of_prefix _ _ _ hcovers hfound habsent

theorem node?_cons {entries : Directory κ} (hdirectory : fs.directory? location = some entries)
    (name : Name) : fs.node? (name :: location) = entries.child? name := by
  rw [directory?, Option.bind_eq_some_iff] at hdirectory
  obtain ⟨found, hfound, hentries⟩ := hdirectory
  cases found with
  | directory inner =>
      cases hentries
      rw [node?, Directory.node?, List.reverse_cons]
      exact Directory.descend?_append_singleton _ name _ hfound
  | file body modified => cases hentries
  | link target => cases hentries
  | special => cases hentries

theorem directory?_of_node? {entries : Directory κ}
    (hfound : fs.node? location = some (.directory entries)) :
    fs.directory? location = some entries := by
  rw [directory?, hfound]
  rfl

/-! ## Making directories -/

/-- Where a path name leads to nothing, there is nothing. -/
theorem node?_of_walk_absent (fs : FileSystem κ) (follow : Bool) (links : Nat)
    (location : Location) (here : Option (Directory κ)) (segments : List Name)
    {directory : Location} {name : Name} {trailing : Bool}
    (hhere : ∀ entries, here = some entries → fs.directory? location = some entries)
    (hwalk : fs.walk follow links location here segments = .ok (.absent directory name trailing)) :
    fs.node? (name :: directory) = none := by
  fun_induction walk fs follow links location here segments with
  | case2 links location here segment rest hskip ih => exact ih hhere hwalk
  | case3 links location here rest hskip ih => exact ih (fun _ h => h) hwalk
  | case6 links location segment rest hskip hup last entries hlength hchild hlast =>
      cases hwalk
      rw [node?_cons (hhere entries rfl), hchild]
  | case8 links location segment rest hskip hup entries hlength inner hchild ih =>
      refine ih (fun found hfound => ?_) hwalk
      cases hfound
      refine directory?_of_node? ?_
      rw [node?_cons (hhere entries rfl), hchild]
  | case11 location segment rest hskip hup entries hlength target hchild hfollow links habsolute
      ih =>
      refine ih (fun found hfound => ?_) hwalk
      cases hfound
      rfl
  | case12 location segment rest hskip hup entries hlength target hchild hfollow links hrelative
      ih =>
      exact ih hhere hwalk
  -- All other ways end with an error or with something that is there.
  | _ => cases hwalk

theorem node?_of_locate_absent {path : Pathname} {follow trailing : Bool} {directory : Location}
    {name : Name} (hlocate : fs.locate path follow = .ok (.absent directory name trailing)) :
    fs.node? (name :: directory) = none := by
  rw [locate] at hlocate
  split at hlocate
  · cases hlocate
  · split at hlocate
    · cases hlocate
    · split at hlocate
      · cases hlocate
      · split at hlocate
        · refine node?_of_walk_absent fs follow linkLimit [] _ _ (fun entries hentries => ?_)
            hlocate
          cases hentries
          rfl
        · exact node?_of_walk_absent fs follow linkLimit _ _ _ (fun _ h => h) hlocate

theorem node?_createDirectory {path : Pathname} {next : FileSystem κ}
    (hfound : fs.node? other = some node) (hleaf : node.isDirectory = false)
    (hnext : fs.createDirectory path = .ok next) : next.node? other = some node := by
  rw [createDirectory] at hnext
  split at hnext
  · cases hnext
  · split at hnext
    · cases hnext
    · cases hnext
    · rename_i directory name trailing hlocate
      cases hnext
      exact node?_put_of_not_covers hfound hleaf
        (not_covers_of_absent hfound (node?_of_locate_absent hlocate)) _

theorem node?_createDirectories {depth : Nat} {path : Pathname} {next : FileSystem κ}
    (hfound : fs.node? other = some node) (hleaf : node.isDirectory = false)
    (hnext : fs.createDirectories depth path = .ok next) : next.node? other = some node := by
  fun_induction createDirectories fs depth path generalizing next with
  | case1 =>
      cases hnext
      exact hfound
  | case2 depth path hpath created hcreated =>
      cases hnext
      exact node?_createDirectory hfound hleaf hcreated
  | case4 path hpath hmissing depth parent hparent above habove created hcreated ih =>
      cases hnext
      exact node?_createDirectory (ih habove) hleaf hcreated
  | case5 path hpath hmissing depth parent hparent above habove error herror hthere ih =>
      cases hnext
      exact ih habove
  | case8 =>
      cases hnext
      exact hfound
  -- The other ways end with an error.
  | _ => cases hnext

/-- Making directories leaves every file alone. -/
theorem node?_createDirectoryAll {path : Pathname} {next : FileSystem κ}
    (hfound : fs.node? other = some node) (hleaf : node.isDirectory = false)
    (hnext : fs.createDirectoryAll path = .ok next) : next.node? other = some node :=
  node?_createDirectories hfound hleaf hnext

end FileSystem

end AudioCatalog
