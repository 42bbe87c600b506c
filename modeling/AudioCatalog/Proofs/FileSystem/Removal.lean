import AudioCatalog.Proofs.FileSystem.Frame

/-!
# Removing a file

What was removed is not found again, whatever links the path name led through, and nothing
else is gone: every other node stays, a directory as a directory.  This takes for granted
what holds of a file system anyway, that the names in a directory are distinct and that
relative path names start from a directory unless that was removed.
-/

namespace AudioCatalog

variable {κ : Type}

namespace Directory

/-! ## Distinct names -/

/-- Whether the names in a directory and in all directories below it are distinct. -/
def Distinct (directory : Directory κ) : Prop :=
  ∀ path entries, directory.descend? path = some (.directory entries) →
    (entries.map (·.1)).Nodup

theorem Distinct.nodup {directory : Directory κ} (hdistinct : directory.Distinct) :
    (directory.map (·.1)).Nodup :=
  hdistinct [] directory rfl

theorem Distinct.child {directory inner : Directory κ} {name : Name}
    (hdistinct : directory.Distinct) (hchild : directory.child? name = some (.directory inner)) :
    inner.Distinct := by
  intro path entries hfound
  apply hdistinct (name :: path)
  cases path with
  | nil =>
      cases hfound
      exact hchild
  | cons next path =>
      rw [descend?_cons directory name (List.cons_ne_nil _ _), hchild]
      exact hfound

theorem child?_eq_none_of_not_mem {directory : Directory κ} {name : Name}
    (h : name ∉ directory.map (·.1)) : directory.child? name = none := by
  rw [child?, Option.map_eq_none_iff, List.find?_eq_none]
  intro entry hmem heq
  exact h (List.mem_map.mpr ⟨entry, hmem, of_decide_eq_true heq⟩)

/-- Where names are distinct, what a change makes of a name is what is there afterwards. -/
theorem child?_alterChild {directory : Directory κ} (hnodup : (directory.map (·.1)).Nodup)
    (name : Name) (change : Option (Node κ) → Option (Node κ)) :
    child? (alterChild name change directory) name = change (directory.child? name) := by
  fun_induction alterChild name change directory with
  | case1 => cases hchange : change none <;> simp [child?, hchange]
  | case2 node rest =>
      have hrest : child? rest name = none :=
        child?_eq_none_of_not_mem (List.nodup_cons.mp hnodup).1
      cases hchange : change (some node) with
      | none => simpa [child?, hchange] using hrest
      | some changed => simp [child?, hchange]
  | case3 other node rest hne ih =>
      simpa [child?, hne] using ih (List.nodup_cons.mp hnodup).2

/-! ## Paths after a removal -/

theorem descend?_remove_self (path : List Name) :
    ∀ {directory : Directory κ}, directory.Distinct → path ≠ [] →
      (descendAlter (fun _ => none) path directory).descend? path = none := by
  induction path with
  | nil => exact fun _ h => absurd rfl h
  | cons name rest ih =>
      intro directory hdistinct _
      cases rest with
      | nil => exact child?_alterChild hdistinct.nodup name _
      | cons next rest =>
          rw [descendAlter_cons _ directory name (List.cons_ne_nil _ _),
            descend?_cons _ name (List.cons_ne_nil _ _), child?_alterChild hdistinct.nodup]
          cases hchild : directory.child? name with
          | none => rfl
          | some node =>
              cases node with
              | directory inner => exact ih (hdistinct.child hchild) (List.cons_ne_nil _ _)
              | file body modified => rfl
              | link target => rfl
              | special => rfl

/-- Whether a node is as it was before, where a directory only has to be a directory. -/
def Kept (before after : Option (Node κ)) : Prop :=
  after = before ∨ ∃ entries rest, before = some (.directory entries) ∧
    after = some (.directory rest)

/-- The removal of a node that is not a directory leaves everything at other paths. -/
theorem kept_remove (path : List Name) :
    ∀ {directory : Directory κ} {node : Node κ} (other : List Name), directory.Distinct →
      directory.descend? path = some node → node.isDirectory = false → other ≠ path →
      Kept (directory.descend? other)
        ((descendAlter (fun _ => none) path directory).descend? other) := by
  induction path with
  | nil =>
      intro directory node other _ hfound hleaf _
      cases hfound
      cases hleaf
  | cons name rest ih =>
      intro directory node other hdistinct hfound hleaf hne
      cases other with
      | nil => exact .inr ⟨_, _, rfl, rfl⟩
      | cons first other =>
          by_cases hfirst : name = first
          · subst hfirst
            have hother : other ≠ rest := fun heq => hne (by rw [heq])
            cases rest with
            | nil =>
                -- Below a node that is not a directory there is nothing.
                have hchild : directory.child? name = some node := hfound
                refine .inl ?_
                rw [descend?_cons _ name hother, descend?_cons _ name hother, hchild]
                simp only [descendAlter, child?_alterChild hdistinct.nodup]
                cases node with
                | directory entries => cases hleaf
                | file body modified => rfl
                | link target => rfl
                | special => rfl
            | cons next rest =>
                obtain ⟨inner, hchild, hinner⟩ :=
                  descend?_eq_some_of_cons (List.cons_ne_nil _ _) hfound
                have hinside := ih other (hdistinct.child hchild) hinner hleaf hother
                have hafter : child? (descendAlter (fun _ => none) (name :: next :: rest)
                    directory) name =
                      some (.directory (descendAlter (fun _ => none) (next :: rest) inner)) := by
                  rw [descendAlter_cons _ directory name (List.cons_ne_nil _ _),
                    child?_alterChild hdistinct.nodup, hchild]
                cases other with
                | nil => exact .inr ⟨_, _, hchild, hafter⟩
                | cons second other =>
                    rw [descend?_cons _ name (List.cons_ne_nil _ _),
                      descend?_cons _ name (List.cons_ne_nil _ _), hchild, hafter]
                    exact hinside
          · refine .inl (descend?_congr ?_ other)
            cases rest with
            | nil => exact child?_alterChild_of_ne directory name first _ hfirst
            | cons next rest =>
                rw [descendAlter_cons _ directory name (List.cons_ne_nil _ _)]
                exact child?_alterChild_of_ne directory name first _ hfirst

end Directory

namespace FileSystem

variable {fs next : FileSystem κ} {location : Location} {node : Node κ}

/-! ## File systems after a removal -/

/-- Whether names are distinct, and relative path names start from a directory or from where
one was removed. -/
structure Proper (fs : FileSystem κ) : Prop where
  distinct : fs.root.Distinct
  current : (fs.directory? fs.current).isSome ∨ removed fs.current = fs.current

/-- Whether what is at a location is as it was before, where a directory only has to be a
directory. -/
def KeptAt (fs next : FileSystem κ) (location : Location) : Prop :=
  Directory.Kept (fs.node? location) (next.node? location)

theorem ne_nil_of_node? (hfound : fs.node? location = some node)
    (hleaf : node.isDirectory = false) : location ≠ [] := by
  rintro rfl
  cases hfound
  cases hleaf

theorem node?_erase_self (hproper : fs.Proper) (hlocation : location ≠ []) :
    (fs.erase location).node? location = none :=
  Directory.descend?_remove_self _ hproper.distinct (by simpa using hlocation)

theorem keptAt_erase (hproper : fs.Proper) (hfound : fs.node? location = some node)
    (hleaf : node.isDirectory = false) {other : Location} (hne : other ≠ location) :
    fs.KeptAt (fs.erase location) other :=
  Directory.kept_remove _ _ hproper.distinct hfound hleaf fun heq =>
    hne (List.reverse_inj.mp heq)

/-! ## What a walk leads to -/

theorem directory?_eq_some_iff {entries : Directory κ} :
    fs.directory? location = some entries ↔ fs.node? location = some (.directory entries) := by
  rw [directory?, Option.bind_eq_some_iff]
  constructor
  · rintro ⟨found, hfound, hentries⟩
    cases found with
    | directory inner =>
        cases hentries
        exact hfound
    | file body modified => cases hentries
    | link target => cases hentries
    | special => cases hentries
  · intro hfound
    exact ⟨_, hfound, rfl⟩

/-- What a path name leads to is there. -/
theorem node?_of_walk_present (fs : FileSystem κ) (follow : Bool) (links : Nat)
    (start : Location) (here : Option (Directory κ)) (segments : List Name) {trailing : Bool}
    (hhere : ∀ entries, here = some entries → fs.directory? start = some entries)
    (hwalk : fs.walk follow links start here segments = .ok (.present location node trailing))
    (hleaf : node.isDirectory = false) : fs.node? location = some node := by
  fun_induction walk fs follow links start here segments with
  | case1 =>
      cases hwalk
      cases hleaf
  | case2 links start here segment rest hskip ih => exact ih hhere hwalk
  | case3 links start here rest hskip ih => exact ih (fun _ h => h) hwalk
  | case8 links start segment rest hskip hup entries hlength inner hchild ih =>
      refine ih (fun found hfound => ?_) hwalk
      cases hfound
      rw [directory?_eq_some_iff, node?_cons (hhere entries rfl), hchild]
  | case9 links start segment rest hskip hup entries hlength target hchild hlast =>
      cases hwalk
      rw [node?_cons (hhere entries rfl), hchild]
  | case11 start segment rest hskip hup entries hlength target hchild hfollow links habsolute ih =>
      exact ih (fun found hfound => hfound ▸ rfl) hwalk
  | case12 start segment rest hskip hup entries hlength target hchild hfollow links hrelative ih =>
      exact ih hhere hwalk
  | case13 links start segment rest hskip hup last entries hlength found hdirectory hlink hchild =>
      cases hwalk
      rw [node?_cons (hhere entries rfl), hchild]
  -- All other ways end with an error or with nothing.
  | _ => cases hwalk

/-! ## Walks from one name to the next -/

/-- Whether nothing is found at the end of a walk. -/
def Missing (result : Except FileError (Place κ)) : Prop :=
  result = .error .notFound ∨
    ∃ directory name trailing, result = .ok (.absent directory name trailing)

section OneName

variable {follow : Bool} {links : Nat} {start : Location} {here : Option (Directory κ)}
  {entries : Directory κ} {segment : Name} {rest : List Name}

theorem walk_skip (hskip : (segment = [] || segment = [Pathname.dot]) = true) :
    fs.walk follow links start here (segment :: rest) = fs.walk follow links start here rest := by
  rw [walk, if_pos hskip]

theorem walk_up : fs.walk follow links start here ([Pathname.dot, Pathname.dot] :: rest) =
    fs.walk follow links start.tail (fs.directory? start.tail) rest := by
  rw [walk, if_neg (by decide), if_pos rfl]

variable (hskip : ¬ (segment = [] || segment = [Pathname.dot]) = true)
  (hup : segment ≠ [Pathname.dot, Pathname.dot]) (hlength : ¬ segment.length > nameLimit)

include hskip hup hlength

theorem walk_directory {inner : Directory κ}
    (hchild : entries.child? segment = some (.directory inner)) :
    fs.walk follow links start (some entries) (segment :: rest) =
      fs.walk follow links (segment :: start) (some inner) rest := by
  rw [walk, if_neg hskip, if_neg hup]
  simp only [if_neg hlength, hchild]

/-- A link is followed unless it ends the path name and links are not to be followed there. -/
theorem walk_link {target : Pathname} (hfollow : ¬ (rest = [] && !follow) = true)
    (hchild : entries.child? segment = some (.link target)) :
    fs.walk follow (links + 1) start (some entries) (segment :: rest) =
      if target.isAbsolute then fs.walk follow links [] (some fs.root) (target.segments ++ rest)
      else fs.walk follow links start (some entries) (target.segments ++ rest) := by
  rw [walk, if_neg hskip, if_neg hup]
  simp only [if_neg hlength, hchild, if_neg hfollow]

/-- A link that ends the path name and is not followed is found itself. -/
theorem walk_unfollowed {target : Pathname} (hlast : (rest = [] && !follow) = true)
    (hchild : entries.child? segment = some (.link target)) :
    fs.walk follow links start (some entries) (segment :: rest) =
      .ok (.present (segment :: start) (.link target) false) := by
  rw [walk, if_neg hskip, if_neg hup]
  simp only [if_neg hlength, hchild, if_pos hlast]

/-- What is neither a directory nor a link ends a walk. -/
theorem walk_end (hdirectory : ∀ inner, node ≠ .directory inner)
    (hlink : ∀ target, node ≠ .link target) (hlast : rest.all (· = []) = true)
    (hchild : entries.child? segment = some node) :
    fs.walk follow links start (some entries) (segment :: rest) =
      .ok (.present (segment :: start) node (!rest.isEmpty)) := by
  rw [walk, if_neg hskip, if_neg hup]
  simp only [if_neg hlength, hchild, if_pos hlast]

/-- A walk finds nothing when a name on it is not there. -/
theorem missing_walk (hchild : entries.child? segment = none) :
    Missing (fs.walk follow links start (some entries) (segment :: rest)) := by
  rw [walk, if_neg hskip, if_neg hup]
  simp only [if_neg hlength, hchild]
  split
  · exact .inr ⟨_, _, _, rfl⟩
  · exact .inl rfl

end OneName

/-! ## Walks after a removal -/

/-- Whether the second file system is the first one without the nodes at some locations, none
of which is a directory.  Of the directories that stay it only matters that they are there. -/
structure Without (fs : FileSystem κ) (gone : List Location) (next : FileSystem κ) : Prop where
  leaf : ∀ location ∈ gone, ∃ node, fs.node? location = some node ∧ node.isDirectory = false
  missing : ∀ location ∈ gone, next.node? location = none
  kept : ∀ location ∉ gone, fs.KeptAt next location

theorem without_erase (hproper : fs.Proper) (hfound : fs.node? location = some node)
    (hleaf : node.isDirectory = false) : fs.Without [location] (fs.erase location) where
  leaf other hother := by
    rw [List.mem_singleton.mp hother]
    exact ⟨node, hfound, hleaf⟩
  missing other hother := by
    rw [List.mem_singleton.mp hother]
    exact node?_erase_self hproper (ne_nil_of_node? hfound hleaf)
  kept other hother := keptAt_erase hproper hfound hleaf fun heq =>
    hother (List.mem_singleton.mpr heq)

namespace Without

variable {gone : List Location} {start : Location} {entries : Directory κ} {segment : Name}

/-- Directories are still there. -/
theorem exists_directory (hwithout : fs.Without gone next)
    (hstart : fs.directory? start = some entries) : ∃ rest, next.directory? start = some rest := by
  have hnode := directory?_eq_some_iff.mp hstart
  have hstays : start ∉ gone := by
    intro hgone
    obtain ⟨found, hfound, hleaf⟩ := hwithout.leaf start hgone
    rw [hnode] at hfound
    cases hfound
    cases hleaf
  have hkept := hwithout.kept start hstays
  rw [KeptAt, hnode] at hkept
  rcases hkept with hsame | ⟨_, rest, -, hrest⟩
  · exact ⟨entries, directory?_eq_some_iff.mpr hsame⟩
  · exact ⟨rest, directory?_eq_some_iff.mpr hrest⟩

/-- A directory in a directory is still there. -/
theorem exists_inner (hwithout : fs.Without gone next) (hstart : fs.directory? start = some entries)
    {inner : Directory κ} (hchild : entries.child? segment = some (.directory inner)) :
    ∃ rest inside, next.directory? start = some rest ∧
      rest.child? segment = some (.directory inside) ∧
      next.directory? (segment :: start) = some inside := by
  have hinner : fs.directory? (segment :: start) = some inner := by
    rw [directory?_eq_some_iff, node?_cons hstart, hchild]
  obtain ⟨rest, hrest⟩ := hwithout.exists_directory hstart
  obtain ⟨inside, hinside⟩ := hwithout.exists_directory hinner
  refine ⟨rest, inside, hrest, ?_, hinside⟩
  rw [← node?_cons hrest]
  exact directory?_eq_some_iff.mp hinside

/-- What is not a directory is gone or as it was. -/
theorem exists_leaf (hwithout : fs.Without gone next) (hstart : fs.directory? start = some entries)
    (hchild : entries.child? segment = some node) (hleaf : node.isDirectory = false) :
    ∃ rest, next.directory? start = some rest ∧
      (segment :: start ∈ gone → rest.child? segment = none) ∧
      (segment :: start ∉ gone → rest.child? segment = some node) := by
  obtain ⟨rest, hrest⟩ := hwithout.exists_directory hstart
  refine ⟨rest, hrest, fun hgone => ?_, fun hstays => ?_⟩
  · rw [← node?_cons hrest]
    exact hwithout.missing _ hgone
  · have hkept := hwithout.kept _ hstays
    rw [KeptAt, node?_cons hstart, node?_cons hrest, hchild] at hkept
    rcases hkept with hsame | ⟨_, _, hdirectory, -⟩
    · exact hsame
    · cases hdirectory
      cases hleaf

end Without

/-- Whether a walk finds nothing once something on its way is gone, and ends at the same place
while everything on its way is there. -/
def DependsOn (way gone : List Location) (result place : Except FileError (Place κ)) : Prop :=
  ((∃ passed ∈ way, passed ∈ gone) → Missing result) ∧
    ((∀ passed ∈ way, passed ∉ gone) → result = place)

theorem DependsOn.cons {way gone : List Location} {passed : Location}
    {result rest place : Except FileError (Place κ)} (hrest : DependsOn way gone rest place)
    (hgone : passed ∈ gone → Missing result) (hstays : passed ∉ gone → result = rest) :
    DependsOn (passed :: way) gone result place := by
  by_cases hpassed : passed ∈ gone
  · exact ⟨fun _ => hgone hpassed, fun hall => absurd hpassed (hall passed List.mem_cons_self)⟩
  · rw [hstays hpassed]
    refine ⟨?_, fun hall => hrest.2 fun other hother => hall other (List.mem_cons_of_mem _ hother)⟩
    rintro ⟨other, hother, hhit⟩
    rcases List.mem_cons.mp hother with rfl | hother
    · exact absurd hhit hpassed
    · exact hrest.1 ⟨other, hother, hhit⟩

theorem DependsOn.nil (gone : List Location) (place : Except FileError (Place κ)) :
    DependsOn [] gone place place :=
  ⟨fun ⟨_, hpassed, _⟩ => absurd hpassed List.not_mem_nil, fun _ => rfl⟩

/-- On the way to a node that is not a directory are the links that are followed, and the node
itself. -/
theorem exists_way (fs : FileSystem κ) (follow : Bool) (links : Nat) (start : Location)
    (here : Option (Directory κ)) (segments : List Name) {trailing : Bool}
    (hhere : here = fs.directory? start)
    (hwalk : fs.walk follow links start here segments = .ok (.present location node trailing))
    (hleaf : node.isDirectory = false) :
    ∃ way : List Location, location ∈ way ∧ ∀ {gone : List Location} {next : FileSystem κ},
      fs.Without gone next → DependsOn way gone
        (next.walk follow links start (next.directory? start) segments)
        (.ok (.present location node trailing)) := by
  fun_induction walk fs follow links start here segments with
  | case1 =>
      cases hwalk
      cases hleaf
  | case2 links start here segment rest hskip ih =>
      obtain ⟨way, hend, hway⟩ := ih hhere hwalk
      refine ⟨way, hend, fun hwithout => ?_⟩
      rw [walk_skip hskip]
      exact hway hwithout
  | case3 links start here rest hskip ih =>
      obtain ⟨way, hend, hway⟩ := ih rfl hwalk
      refine ⟨way, hend, fun hwithout => ?_⟩
      rw [walk_up]
      exact hway hwithout
  | case8 links start segment rest hskip hup entries hlength inner hchild ih =>
      have hinner : fs.directory? (segment :: start) = some inner := by
        rw [directory?_eq_some_iff, node?_cons hhere.symm, hchild]
      obtain ⟨way, hend, hway⟩ := ih hinner.symm hwalk
      refine ⟨way, hend, fun hwithout => ?_⟩
      obtain ⟨after, inside, hafter, hafterChild, hinside⟩ :=
        hwithout.exists_inner hhere.symm hchild
      rw [hafter, walk_directory hskip hup hlength hafterChild, ← hinside]
      exact hway hwithout
  | case9 links start segment rest hskip hup entries hlength target hchild hlast =>
      cases hwalk
      refine ⟨[segment :: start], List.mem_singleton.mpr rfl, fun hwithout => ?_⟩
      obtain ⟨after, hafter, hgone, hstays⟩ := hwithout.exists_leaf hhere.symm hchild rfl
      rw [hafter]
      exact (DependsOn.nil _ _).cons (fun hhit => missing_walk hskip hup hlength (hgone hhit))
        fun hmiss => walk_unfollowed hskip hup hlength hlast (hstays hmiss)
  | case11 start segment rest hskip hup entries hlength target hchild hfollow links habsolute ih =>
      obtain ⟨way, hend, hway⟩ := ih rfl hwalk
      refine ⟨(segment :: start) :: way, List.mem_cons_of_mem _ hend, fun hwithout => ?_⟩
      obtain ⟨after, hafter, hgone, hstays⟩ := hwithout.exists_leaf hhere.symm hchild rfl
      rw [hafter]
      refine (hway hwithout).cons (fun hhit => missing_walk hskip hup hlength (hgone hhit)) ?_
      intro hmiss
      rw [walk_link hskip hup hlength hfollow (hstays hmiss), if_pos habsolute]
      rfl
  | case12 start segment rest hskip hup entries hlength target hchild hfollow links hrelative ih =>
      obtain ⟨way, hend, hway⟩ := ih hhere hwalk
      refine ⟨(segment :: start) :: way, List.mem_cons_of_mem _ hend, fun hwithout => ?_⟩
      obtain ⟨after, hafter, hgone, hstays⟩ := hwithout.exists_leaf hhere.symm hchild rfl
      have hrest := hway hwithout
      rw [hafter] at hrest ⊢
      refine hrest.cons (fun hhit => missing_walk hskip hup hlength (hgone hhit)) ?_
      intro hmiss
      rw [walk_link hskip hup hlength hfollow (hstays hmiss), if_neg hrelative]
  | case13 links start segment rest hskip hup last entries hlength found hdirectory hlink hchild
      hlast =>
      cases hwalk
      refine ⟨[segment :: start], List.mem_singleton.mpr rfl, fun hwithout => ?_⟩
      obtain ⟨after, hafter, hgone, hstays⟩ := hwithout.exists_leaf hhere.symm hchild hleaf
      rw [hafter]
      exact (DependsOn.nil _ _).cons (fun hhit => missing_walk hskip hup hlength (hgone hhit))
        fun hmiss => walk_end hskip hup hlength hdirectory hlink hlast (hstays hmiss)
  -- All other ways end with an error or with nothing.
  | _ => cases hwalk

/-- Relative path names start from the same place after a file was removed: a directory is
not below a file. -/
theorem current_erase (hproper : fs.Proper) (hfound : fs.node? location = some node)
    (hleaf : node.isDirectory = false) : (fs.erase location).current = fs.current := by
  by_cases hbelow : location.isSuffixOf fs.current
  · rcases hproper.current with hthere | hremoved
    · obtain ⟨entries, hentries⟩ := Option.isSome_iff_exists.mp hthere
      obtain ⟨rest, hrest⟩ := (without_erase hproper hfound hleaf).exists_directory hentries
      have hnothing := node?_erase_self hproper (ne_nil_of_node? hfound hleaf)
      have hprefix : location.reverse <+: fs.current.reverse :=
        List.reverse_prefix.mpr (List.isSuffixOf_iff_suffix.mp hbelow)
      exact absurd hnothing
        (Directory.descend?_ne_none_of_prefix _ _ _ hprefix (directory?_eq_some_iff.mp hrest))
    · simp only [erase, if_pos hbelow, hremoved]
  · simp only [erase, if_neg hbelow]

/-- Where the walk along a path name starts. -/
def startOf (fs : FileSystem κ) (path : Pathname) : Location :=
  if path.isAbsolute then [] else fs.current

/-- Whether a path name is one that can be followed. -/
structure Followable (path : Pathname) : Prop where
  nul_free : path.bytes.contains 0 = false
  nonempty : path.bytes ≠ []
  short : ¬ path.bytes.length > pathLimit

theorem locate_of_followable {path : Pathname} (hpath : Followable path) (follow : Bool) :
    fs.locate path follow =
      fs.walk follow linkLimit (fs.startOf path) (fs.directory? (fs.startOf path))
        path.segments := by
  rw [locate, if_neg (by rw [hpath.nul_free]; exact Bool.false_ne_true), if_neg hpath.nonempty,
    if_neg hpath.short, startOf]
  split <;> rfl

theorem followable_of_locate {path : Pathname} {follow : Bool} {place : Place κ}
    (hlocate : fs.locate path follow = .ok place) : Followable path := by
  rw [locate] at hlocate
  split at hlocate
  · cases hlocate
  · rename_i hnul
    split at hlocate
    · cases hlocate
    · rename_i hempty
      split at hlocate
      · cases hlocate
      · rename_i hlength
        exact ⟨by simpa using hnul, hempty, hlength⟩

/-- Only a directory is found behind a slash. -/
theorem locate_of_find {path : Pathname} {follow : Bool}
    (hfind : fs.find path follow = .ok (location, node)) (hleaf : node.isDirectory = false) :
    fs.locate path follow = .ok (.present location node false) := by
  rw [find] at hfind
  split at hfind
  · cases hfind
  · cases hfind
  · rename_i found present trailing hlocate
    split at hfind
    · cases hfind
    · rename_i htrailing
      cases hfind
      cases trailing with
      | false => exact hlocate
      | true =>
          rw [hleaf] at htrailing
          exact absurd rfl htrailing

/-- What a path name leads to is there. -/
theorem node?_of_find {path : Pathname} {follow : Bool}
    (hfind : fs.find path follow = .ok (location, node)) (hleaf : node.isDirectory = false) :
    fs.node? location = some node := by
  have hlocate := locate_of_find hfind hleaf
  rw [locate_of_followable (followable_of_locate hlocate)] at hlocate
  exact node?_of_walk_present fs _ _ _ _ _ (fun _ h => h) hlocate hleaf

/-- A path name leads to the same file while everything on the way is there, and else to
nothing. -/
theorem exists_way_of_find {path : Pathname} {follow : Bool}
    (hfind : fs.find path follow = .ok (location, node)) (hleaf : node.isDirectory = false) :
    ∃ way : List Location, location ∈ way ∧ ∀ {gone : List Location} {next : FileSystem κ},
      fs.Without gone next → next.current = fs.current →
        ((∃ passed ∈ way, passed ∈ gone) → next.find path follow = .error .notFound) ∧
        ((∀ passed ∈ way, passed ∉ gone) → next.find path follow = .ok (location, node)) := by
  have hlocate := locate_of_find hfind hleaf
  have hpath := followable_of_locate hlocate
  rw [locate_of_followable hpath] at hlocate
  obtain ⟨way, hend, hway⟩ := exists_way fs _ _ _ _ _ rfl hlocate hleaf
  refine ⟨way, hend, fun {gone next} hwithout hcurrent => ?_⟩
  have hstart : next.startOf path = fs.startOf path := by
    rw [startOf, startOf, hcurrent]
  rw [find, locate_of_followable hpath, hstart]
  refine ⟨fun hhit => ?_, fun hmiss => ?_⟩
  · rcases (hway hwithout).1 hhit with hnothing | ⟨directory, name, trailing, habsent⟩
    · rw [hnothing]
    · rw [habsent]
  · rw [(hway hwithout).2 hmiss]
    rfl

/-- A path name that led to a removed file leads to nothing. -/
theorem find_erase (hproper : fs.Proper) {path : Pathname} {follow : Bool}
    (hfind : fs.find path follow = .ok (location, node)) (hleaf : node.isDirectory = false) :
    (fs.erase location).find path follow = .error .notFound := by
  have hfound := node?_of_find hfind hleaf
  obtain ⟨way, hend, hway⟩ := exists_way_of_find hfind hleaf
  exact (hway (without_erase hproper hfound hleaf) (current_erase hproper hfound hleaf)).1
    ⟨location, hend, List.mem_singleton.mpr rfl⟩

/-! ## Removing an imported file -/

/-- Where the last segment is empty, it comes after every segment that is not. -/
theorem getLast?_of_cons {segment : Name} {rest : List Name}
    (hlast : (segment :: rest).getLast? = some []) (hsegment : segment ≠ []) :
    rest ≠ [] ∧ rest.getLast? = some [] := by
  cases rest with
  | nil => exact absurd (Option.some.inj hlast) hsegment
  | cons next rest =>
      rw [List.getLast?_cons_cons] at hlast
      exact ⟨List.cons_ne_nil _ _, hlast⟩

/-- A walk along segments with a slash behind them tells of the slash, unless it ends at a
directory. -/
theorem trailing_of_walk (fs : FileSystem κ) (follow : Bool) (links : Nat) (start : Location)
    (here : Option (Directory κ)) (segments : List Name) {trailing : Bool}
    (hlast : segments.getLast? = some [])
    (hwalk : fs.walk follow links start here segments = .ok (.present location node trailing))
    (hleaf : node.isDirectory = false) : trailing = true := by
  fun_induction walk fs follow links start here segments with
  | case1 => cases hlast
  | case2 links start here segment rest hskip ih =>
      cases rest with
      | nil =>
          rw [walk] at hwalk
          cases hwalk
          cases hleaf
      | cons next rest =>
          rw [List.getLast?_cons_cons] at hlast
          exact ih hlast hwalk
  | case3 links start here rest hskip ih =>
      exact ih (getLast?_of_cons hlast (List.cons_ne_nil _ _)).2 hwalk
  | case8 links start segment rest hskip hup entries hlength inner hchild ih =>
      have hsegment : segment ≠ [] := fun heq => hskip (by simp [heq])
      exact ih (getLast?_of_cons hlast hsegment).2 hwalk
  | case9 links start segment rest hskip hup entries hlength target hchild hend =>
      have hsegment : segment ≠ [] := fun heq => hskip (by simp [heq])
      rw [Bool.and_eq_true, decide_eq_true_eq] at hend
      exact absurd hend.1 (getLast?_of_cons hlast hsegment).1
  | case11 start segment rest hskip hup entries hlength target hchild hfollow links habsolute ih =>
      have hsegment : segment ≠ [] := fun heq => hskip (by simp [heq])
      have hrest := (getLast?_of_cons hlast hsegment).2
      exact ih (by rw [List.getLast?_append, hrest, Option.some_or]) hwalk
  | case12 start segment rest hskip hup entries hlength target hchild hfollow links hrelative ih =>
      have hsegment : segment ≠ [] := fun heq => hskip (by simp [heq])
      have hrest := (getLast?_of_cons hlast hsegment).2
      exact ih (by rw [List.getLast?_append, hrest, Option.some_or]) hwalk
  | case13 links start segment rest hskip hup last entries hlength found hdirectory hlink hchild =>
      have hsegment : segment ≠ [] := fun heq => hskip (by simp [heq])
      have hrest := (getLast?_of_cons hlast hsegment).1
      cases hwalk
      simpa using hrest
  -- All other ways end with an error or with nothing.
  | _ => cases hwalk

/-- The last segment of a name that ends in a slash is empty. -/
theorem splitBytes_eq_append {bytes : List UInt8} (hlast : bytes.getLast? = some Pathname.slash) :
    ∃ front, front ≠ [] ∧ Pathname.splitBytes bytes = front ++ [[]] := by
  induction bytes with
  | nil => cases hlast
  | cons byte rest ih =>
      cases rest with
      | nil =>
          cases hlast
          exact ⟨[[]], List.cons_ne_nil _ _, rfl⟩
      | cons next rest =>
          rw [List.getLast?_cons_cons] at hlast
          obtain ⟨front, hfront, hsplit⟩ := ih hlast
          obtain ⟨first, more, rfl⟩ := List.exists_cons_of_ne_nil hfront
          rw [Pathname.splitBytes, hsplit]
          split
          · exact ⟨[] :: first :: more, List.cons_ne_nil _ _, rfl⟩
          · exact ⟨(byte :: first) :: more, List.cons_ne_nil _ _, rfl⟩

/-- A path name that leads to a file has no slash behind it. -/
theorem trimmed_of_find {path : Pathname} {follow : Bool}
    (hfind : fs.find path follow = .ok (location, node)) (hleaf : node.isDirectory = false) :
    path.trimmed = path := by
  have hlocate := locate_of_find hfind hleaf
  have hpath := followable_of_locate hlocate
  rw [locate_of_followable hpath] at hlocate
  obtain ⟨front, last, hbytes⟩ := List.eq_nil_or_concat path.bytes |>.resolve_left hpath.nonempty
  have hslash : last ≠ Pathname.slash := by
    rintro rfl
    have hend : path.bytes.getLast? = some Pathname.slash := by simp [hbytes]
    obtain ⟨segments, -, hsplit⟩ := splitBytes_eq_append hend
    have hlast : path.segments.getLast? = some [] := by
      rw [Pathname.segments, hsplit, List.getLast?_concat]
    cases trailing_of_walk fs _ _ _ _ _ hlast hlocate hleaf
  cases path
  simp only at hbytes
  simp [Pathname.trimmed, hbytes, hslash]

/-- Whether what a path name leads to, if links at its end are not followed, is gone, and
nothing else. -/
structure LosesOnly (fs : FileSystem κ) (path : Pathname) (next : FileSystem κ) : Prop where
  gone : next.find path false = .error .notFound
  kept : ∀ location, (∀ node, fs.find path false ≠ .ok (location, node)) → fs.KeptAt next location

/-- What is unlinked is not a directory. -/
theorem unlink_eq_ok {path : Pathname} (h : fs.unlink path = .ok next) :
    ∃ location node, fs.find path.trimmed false = .ok (location, node) ∧
      node.isDirectory = false ∧ next = fs.erase location := by
  rw [unlink] at h
  split at h
  · cases h
  · split at h
    · cases h
    · cases h
    · rename_i location node hnode hfind
      split at h
      · cases h
        refine ⟨location, node, hfind, ?_, rfl⟩
        cases node with
        | directory entries => exact absurd rfl (hnode entries)
        | file body modified => rfl
        | link target => rfl
        | special => rfl
      · cases h

theorem unlink_eq_notFound {path : Pathname} (h : fs.unlink path = .error .notFound) :
    fs.find path.trimmed false = .error .notFound := by
  rw [unlink] at h
  split at h
  · cases h
  · split at h
    · rename_i cause hfind
      cases h
      exact hfind
    · cases h
    · split at h <;> cases h

/-- A file that was removed, or was gone already, is gone, and nothing else is. -/
theorem losesOnly_of_removeImported (hproper : fs.Proper) {path : Pathname}
    (htrimmed : path.trimmed = path) (h : fs.removeImported path = .ok next) :
    fs.LosesOnly path next := by
  rw [removeImported] at h
  split at h
  · rename_i hunlink
    cases h
    have hfind := unlink_eq_notFound hunlink
    rw [htrimmed] at hfind
    exact ⟨hfind, fun _ _ => .inl rfl⟩
  · obtain ⟨location, node, hfind, hleaf, rfl⟩ := unlink_eq_ok h
    rw [htrimmed] at hfind
    refine ⟨find_erase hproper hfind hleaf, fun other hother => ?_⟩
    refine keptAt_erase hproper (node?_of_find hfind hleaf) hleaf ?_
    rintro rfl
    exact hother node hfind

end FileSystem

end AudioCatalog
