import AudioCatalog.Proofs.FileSystem.Removal
import AudioCatalog.Proofs.Results

/-!
# Clearing files away

When files are removed one after the other by their path names, a path name leads to nothing
as soon as something on its way is gone, and leads to the same file as long as nothing is.
`FileSystem.Takes` tells of two path names in one file system whether the removal of the first
leaves the second without its file.  That is all there is to know for any sequence of removals:
a path name has lost its file exactly if one of the removed ones takes it away.
-/

namespace AudioCatalog

variable {κ : Type}

/-! ## Removals from proper file systems -/

namespace Directory

/-- Without a new entry there are no new names. -/
theorem sublist_alterChild (directory : Directory κ) (name : Name)
    {change : Option (Node κ) → Option (Node κ)} (hnone : change none = none) :
    ((alterChild name change directory).map (·.1)).Sublist (directory.map (·.1)) := by
  fun_induction alterChild name change directory with
  | case1 => simp [hnone]
  | case2 node rest => cases change (some node) <;> simp
  | case3 other node rest hne ih => exact ih.cons_cons other

/-- Names stay distinct if they are so in the directory that a change makes. -/
theorem Distinct.alterChild {directory : Directory κ} (hdistinct : directory.Distinct)
    (name : Name) {change : Option (Node κ) → Option (Node κ)} (hnone : change none = none)
    (hinner : ∀ inner : Directory κ,
      change (directory.child? name) = some (.directory inner) → Distinct inner) :
    Distinct (Directory.alterChild name change directory) := by
  intro path entries hfound
  cases path with
  | nil =>
      cases hfound
      exact (sublist_alterChild directory name hnone).nodup hdistinct.nodup
  | cons first path =>
      by_cases hfirst : name = first
      · subst hfirst
        have hchild := child?_alterChild hdistinct.nodup name change
        cases path with
        | nil => exact hinner entries (hchild.symm.trans hfound) [] entries rfl
        | cons second path =>
            obtain ⟨inner, hthere, hinside⟩ :=
              descend?_eq_some_of_cons (List.cons_ne_nil _ _) hfound
            exact hinner inner (hchild.symm.trans hthere) _ entries hinside
      · rw [descend?_congr (child?_alterChild_of_ne directory name first change hfirst)] at hfound
        exact hdistinct _ entries hfound

/-- Names that are distinct stay so when a path is removed. -/
theorem Distinct.remove (path : List Name) :
    ∀ {directory : Directory κ}, directory.Distinct →
      Distinct (descendAlter (fun _ => none) path directory) := by
  induction path with
  | nil => exact id
  | cons name rest ih =>
      intro directory hdistinct
      cases rest with
      | nil => exact hdistinct.alterChild name rfl fun _ h => nomatch h
      | cons next rest =>
          rw [descendAlter_cons _ directory name (List.cons_ne_nil _ _)]
          refine hdistinct.alterChild name rfl fun inner hchange => ?_
          cases hchild : directory.child? name with
          | none =>
              rw [hchild] at hchange
              cases hchange
          | some node =>
              rw [hchild] at hchange
              cases node with
              | directory inside =>
                  cases hchange
                  exact ih (hdistinct.child hchild)
              | file body modified => cases hchange
              | link target => cases hchange
              | special => cases hchange

theorem Kept.trans {first second third : Option (Node κ)} (hearlier : Kept first second)
    (hlater : Kept second third) : Kept first third := by
  rcases hearlier with rfl | ⟨entries, rest, rfl, rfl⟩
  · exact hlater
  · rcases hlater with rfl | ⟨_, last, -, rfl⟩
    · exact .inr ⟨entries, rest, rfl, rfl⟩
    · exact .inr ⟨entries, last, rfl, rfl⟩

end Directory

namespace FileSystem

variable {fs now next : FileSystem κ} {location : Location} {node : Node κ}

/-- A file system stays proper when a file is removed. -/
theorem Proper.erase (hproper : fs.Proper) (hfound : fs.node? location = some node)
    (hleaf : node.isDirectory = false) : (fs.erase location).Proper where
  distinct := hproper.distinct.remove _
  current := by
    rw [current_erase hproper hfound hleaf]
    refine hproper.current.imp_left fun hthere => ?_
    obtain ⟨entries, hentries⟩ := Option.isSome_iff_exists.mp hthere
    obtain ⟨rest, hrest⟩ := (without_erase hproper hfound hleaf).exists_directory hentries
    exact Option.isSome_of_eq_some hrest

theorem Without.refl (fs : FileSystem κ) : fs.Without [] fs where
  leaf _ hgone := nomatch hgone
  missing _ hgone := nomatch hgone
  kept _ _ := .inl rfl

/-- One more file that was there from the start is removed. -/
theorem Without.erase {gone : List Location} (hwithout : fs.Without gone now)
    (hproper : now.Proper) (hstart : fs.node? location = some node)
    (hfound : now.node? location = some node) (hleaf : node.isDirectory = false) :
    fs.Without (location :: gone) (now.erase location) where
  leaf other hother := by
    rcases List.mem_cons.mp hother with rfl | hother
    · exact ⟨node, hstart, hleaf⟩
    · exact hwithout.leaf other hother
  missing other hother := by
    by_cases heq : other = location
    · rw [heq]
      exact node?_erase_self hproper (ne_nil_of_node? hfound hleaf)
    · have hmissing := hwithout.missing other ((List.mem_cons.mp hother).resolve_left heq)
      have hkept := keptAt_erase hproper hfound hleaf heq
      rw [KeptAt, hmissing] at hkept
      rcases hkept with hsame | ⟨_, _, hdirectory, -⟩
      · exact hsame
      · cases hdirectory
  kept other hother := by
    rw [List.mem_cons, not_or] at hother
    exact (hwithout.kept other hother.2).trans (keptAt_erase hproper hfound hleaf hother.1)

/-! ## Links at the end of a path name -/

/-- Where nothing is found unless the last link is followed, nothing is found if it is. -/
theorem missing_walk_follow (fs : FileSystem κ) (links : Nat) (start : Location)
    (here : Option (Directory κ)) (segments : List Name)
    (hmissing : Missing (fs.walk false links start here segments)) :
    Missing (fs.walk true links start here segments) := by
  fun_induction walk fs false links start here segments with
  | case2 links start here segment rest hskip ih =>
      rw [walk_skip hskip]
      exact ih hmissing
  | case3 links start here rest hskip ih =>
      rw [walk_up]
      exact ih hmissing
  | case4 links start segment rest hskip hup =>
      rw [walk, if_neg hskip, if_neg hup]
      exact hmissing
  | case6 links start segment rest hskip hup last entries hlength hchild hlast
  | case7 links start segment rest hskip hup last entries hlength hchild hlast =>
      exact missing_walk hskip hup hlength hchild
  | case8 links start segment rest hskip hup entries hlength inner hchild ih =>
      rw [walk_directory hskip hup hlength hchild]
      exact ih hmissing
  | case11 start segment rest hskip hup entries hlength target hchild hfollow links habsolute ih =>
      rw [walk_link hskip hup hlength (by simp) hchild, if_pos habsolute]
      exact ih hmissing
  | case12 start segment rest hskip hup entries hlength target hchild hfollow links hrelative ih =>
      rw [walk_link hskip hup hlength (by simp) hchild, if_neg hrelative]
      exact ih hmissing
  -- All other ways end with another error or with something.
  | _ => exact absurd hmissing (by simp [Missing])

/-- Where a file is found if the last link is followed, a file or a link is found if it is
not. -/
theorem exists_walk_unfollowed (fs : FileSystem κ) (links : Nat) (start : Location)
    (here : Option (Directory κ)) (segments : List Name)
    (hwalk : fs.walk true links start here segments = .ok (.present location node false))
    (hleaf : node.isDirectory = false) : ∃ own found,
      fs.walk false links start here segments = .ok (.present own found false) ∧
        found.isDirectory = false := by
  fun_induction walk fs true links start here segments with
  | case1 =>
      cases hwalk
      cases hleaf
  | case2 links start here segment rest hskip ih =>
      rw [walk_skip hskip]
      exact ih hwalk
  | case3 links start here rest hskip ih =>
      rw [walk_up]
      exact ih hwalk
  | case8 links start segment rest hskip hup entries hlength inner hchild ih =>
      rw [walk_directory hskip hup hlength hchild]
      exact ih hwalk
  | case9 links start segment rest hskip hup entries hlength target hchild hlast => simp at hlast
  | case11 start segment rest hskip hup entries hlength target hchild hfollow links habsolute ih =>
      by_cases hlast : (rest = [] && !false) = true
      · exact ⟨_, _, walk_unfollowed hskip hup hlength hlast hchild, rfl⟩
      · rw [walk_link hskip hup hlength hlast hchild, if_pos habsolute]
        exact ih hwalk
  | case12 start segment rest hskip hup entries hlength target hchild hfollow links hrelative ih =>
      by_cases hlast : (rest = [] && !false) = true
      · exact ⟨_, _, walk_unfollowed hskip hup hlength hlast hchild, rfl⟩
      · rw [walk_link hskip hup hlength hlast hchild, if_neg hrelative]
        exact ih hwalk
  | case13 links start segment rest hskip hup last entries hlength found hdirectory hlink hchild
      hlast =>
      refine ⟨location, node, ?_, hleaf⟩
      exact (walk_end hskip hup hlength hdirectory hlink hlast hchild).trans hwalk
  -- All other ways end with an error or with nothing.
  | _ => cases hwalk

/-- A path name that leads to nothing unless its last link is followed leads to nothing. -/
theorem find_follow_eq_notFound {path : Pathname} (h : fs.find path false = .error .notFound) :
    fs.find path true = .error .notFound := by
  by_cases hempty : path.bytes = []
  · rw [find, locate, hempty]
    rfl
  by_cases hnul : path.bytes.contains 0 = true
  · rw [find, locate, if_pos hnul] at h
    cases h
  by_cases hlong : path.bytes.length > pathLimit
  · rw [find, locate, if_neg hnul, if_neg hempty, if_pos hlong] at h
    cases h
  have hpath : Followable path := ⟨Bool.eq_false_iff.mpr hnul, hempty, hlong⟩
  rw [find, locate_of_followable hpath] at h ⊢
  have hmissing : Missing (fs.walk false linkLimit (fs.startOf path)
      (fs.directory? (fs.startOf path)) path.segments) := by
    split at h
    · rename_i error hwalk
      cases h
      exact .inl hwalk
    · rename_i hwalk
      exact .inr ⟨_, _, _, hwalk⟩
    · split at h <;> cases h
  rcases missing_walk_follow fs _ _ _ _ hmissing with hnothing | ⟨_, _, _, habsent⟩
  · rw [hnothing]
  · rw [habsent]

/-! ## Files that are opened -/

theorem open?_eq_ok_iff {path : Pathname} :
    fs.open? path = .ok node ↔ ∃ location, fs.find path true = .ok (location, node) := by
  rw [open?, map_eq_ok_iff]
  constructor
  · rintro ⟨⟨location, found⟩, hfind, rfl⟩
    exact ⟨location, hfind⟩
  · rintro ⟨location, hfind⟩
    exact ⟨_, hfind, rfl⟩

/-- Whether the node at a location is not a directory, and is what a path name removes. -/
def Removes (fs : FileSystem κ) (path : Pathname) (location : Location) : Prop :=
  ∃ node, fs.find path false = .ok (location, node) ∧ node.isDirectory = false ∧
    fs.removeImported path = .ok (fs.erase location)

theorem Removes.unique {path : Pathname} {other : Location} (h : fs.Removes path location)
    (hother : fs.Removes path other) : location = other := by
  obtain ⟨_, hfind, -, -⟩ := h
  obtain ⟨_, hfind', -, -⟩ := hother
  rw [hfind] at hfind'
  cases hfind'
  rfl

/-- A file or a link that a path name ends at can be removed by it. -/
theorem removes_of_find {path : Pathname} (hfind : fs.find path false = .ok (location, node))
    (hleaf : node.isDirectory = false) : fs.Removes path location := by
  have hpath := followable_of_locate (locate_of_find hfind hleaf)
  refine ⟨node, hfind, hleaf, ?_⟩
  rw [removeImported, unlink, if_neg hpath.short, trimmed_of_find hfind hleaf, hfind]
  cases node with
  | directory entries => cases hleaf
  | file body modified => simp only [if_true]
  | link target => simp only [if_true]
  | special => simp only [if_true]

/-- A file that can be opened can be removed by its path name. -/
theorem exists_removes {path : Pathname} (hopen : fs.open? path = .ok node)
    (hleaf : node.isDirectory = false) : ∃ location, fs.Removes path location := by
  obtain ⟨location, hfind⟩ := open?_eq_ok_iff.mp hopen
  have hlocate := locate_of_find hfind hleaf
  have hpath := followable_of_locate hlocate
  rw [locate_of_followable hpath] at hlocate
  obtain ⟨own, found, hwalk, hfound⟩ := exists_walk_unfollowed fs _ _ _ _ hlocate hleaf
  have hown : fs.find path false = .ok (own, found) := by
    rw [find, locate_of_followable hpath, hwalk]
    rfl
  exact ⟨own, removes_of_find hown hfound⟩

/-! ## Sequences of removals -/

/-- Whether the removal of the file that a path name leads to leaves another path name without
its file. -/
def Takes (fs : FileSystem κ) (path other : Pathname) : Prop :=
  ∃ next, fs.removeImported path = .ok next ∧ next.open? other = .error .notFound

/-- The file systems that come of removing files by path names.  Each name, the last one first,
leads to a file in the first file system, and still ends at the file, or at a link to it, when that
is removed. -/
inductive Cleared (fs : FileSystem κ) : List Pathname → FileSystem κ → Prop
  | start : Cleared fs [] fs
  | remove {paths : List Pathname} {now next : FileSystem κ} {path : Pathname} {node : Node κ}
      {place : Location × Node κ} (before : Cleared fs paths now) (known : fs.open? path = .ok node)
      (leaf : node.isDirectory = false) (there : now.find path false = .ok place)
      (removed : now.removeImported path = .ok next) : Cleared fs (path :: paths) next

/-- Once its file is removed, a path name leads to nothing. -/
theorem takes_self (hproper : fs.Proper) {path : Pathname} (hopen : fs.open? path = .ok node)
    (hleaf : node.isDirectory = false) : fs.Takes path path := by
  obtain ⟨location, found, hfind, hfound, hremoved⟩ := exists_removes hopen hleaf
  refine ⟨_, hremoved, ?_⟩
  rw [open?, find_follow_eq_notFound (find_erase hproper hfind hfound)]
  rfl

namespace Cleared

variable {paths : List Pathname}

/-- What is gone is what the path names remove from the first file system. -/
theorem exists_without (hcleared : fs.Cleared paths now) (hproper : fs.Proper) :
    now.Proper ∧ now.current = fs.current ∧ (∀ path ∈ paths, ∃ location, fs.Removes path location) ∧
      ∃ gone, fs.Without gone now ∧
        ∀ location, location ∈ gone ↔ ∃ path ∈ paths, fs.Removes path location := by
  induction hcleared with
  | start =>
      exact ⟨hproper, rfl, fun _ hpath => absurd hpath List.not_mem_nil, [], .refl fs, by simp⟩
  | @remove paths now next path node place before known leaf there removed ih =>
      obtain ⟨hnow, hcurrent, hall, gone, hwithout, hgone⟩ := ih
      obtain ⟨location, hremoves⟩ := exists_removes known leaf
      have ⟨found, hfind, hfound, _⟩ := hremoves
      -- The path name still ends where it did, for else it would end nowhere.
      have hsame : now.find path false = .ok (location, found) := by
        obtain ⟨way, -, hway⟩ := exists_way_of_find hfind hfound
        refine (hway hwithout hcurrent).2 fun passed hpassed hhit => ?_
        have hmissing := (hway hwithout hcurrent).1 ⟨passed, hpassed, hhit⟩
        rw [there] at hmissing
        cases hmissing
      obtain ⟨-, -, -, hremoved⟩ := removes_of_find hsame hfound
      rw [removed] at hremoved
      cases hremoved
      have hthere := node?_of_find hsame hfound
      refine ⟨hnow.erase hthere hfound, (current_erase hnow hthere hfound).trans hcurrent,
        List.forall_mem_cons.mpr ⟨⟨location, hremoves⟩, hall⟩, location :: gone,
        hwithout.erase hnow (node?_of_find hfind hfound) hthere hfound, fun passed => ?_⟩
      simp only [List.mem_cons, hgone, exists_eq_or_imp]
      exact or_congr_left ⟨fun heq => heq ▸ hremoves, fun h => h.unique hremoves⟩

/-- A path name has lost its file exactly if one of the names takes it away. -/
theorem open?_eq (hcleared : fs.Cleared paths now) (hproper : fs.Proper) {path : Pathname}
    (hopen : fs.open? path = .ok node) (hleaf : node.isDirectory = false) :
    ((∃ earlier ∈ paths, fs.Takes earlier path) → now.open? path = .error .notFound) ∧
      ((∀ earlier ∈ paths, ¬ fs.Takes earlier path) → now.open? path = .ok node) := by
  obtain ⟨-, hcurrent, hall, gone, hwithout, hgone⟩ := hcleared.exists_without hproper
  obtain ⟨location, hfind⟩ := open?_eq_ok_iff.mp hopen
  obtain ⟨way, -, hway⟩ := exists_way_of_find hfind hleaf
  have htakes : ∀ {earlier own}, fs.Removes earlier own → (fs.Takes earlier path ↔ own ∈ way) := by
    rintro earlier own ⟨found, hown, hfound, hremoved⟩
    have hthere := node?_of_find hown hfound
    obtain ⟨hmissing, hsame⟩ :=
      hway (without_erase hproper hthere hfound) (current_erase hproper hthere hfound)
    constructor
    · rintro ⟨next, hnext, hnothing⟩
      rw [hremoved] at hnext
      cases hnext
      refine Decidable.byContradiction fun hpassed => ?_
      have hstays := open?_eq_ok_iff.mpr ⟨location, hsame fun passed hmem hhit =>
        hpassed (List.mem_singleton.mp hhit ▸ hmem)⟩
      rw [hnothing] at hstays
      cases hstays
    · intro hpassed
      refine ⟨_, hremoved, ?_⟩
      rw [open?, hmissing ⟨own, hpassed, List.mem_singleton.mpr rfl⟩]
      rfl
  constructor
  · rintro ⟨earlier, hearlier, htaken⟩
    obtain ⟨own, hremoves⟩ := hall earlier hearlier
    rw [open?, (hway hwithout hcurrent).1
      ⟨own, (htakes hremoves).mp htaken, (hgone own).mpr ⟨earlier, hearlier, hremoves⟩⟩]
    rfl
  · intro hnone
    refine open?_eq_ok_iff.mpr ⟨location, (hway hwithout hcurrent).2 fun passed hpassed hhit => ?_⟩
    obtain ⟨earlier, hearlier, hremoves⟩ := (hgone passed).mp hhit
    exact hnone earlier hearlier ((htakes hremoves).mpr hpassed)

/-- A path name that led to a file in the first file system can be used to remove it, be it that
the file is gone already.  After that the name leads to nothing. -/
theorem exists_removeImported (hcleared : fs.Cleared paths now) (hproper : fs.Proper)
    {path : Pathname} (hopen : fs.open? path = .ok node) (hleaf : node.isDirectory = false) :
    ∃ next extra, now.removeImported path = .ok next ∧ fs.Cleared (extra ++ paths) next ∧
      (∀ other ∈ extra, other = path) ∧ ∃ earlier ∈ extra ++ paths, fs.Takes earlier path := by
  obtain ⟨-, hcurrent, -, gone, hwithout, -⟩ := hcleared.exists_without hproper
  obtain ⟨location, found, hfind, hfound, -⟩ := exists_removes hopen hleaf
  obtain ⟨way, -, hway⟩ := exists_way_of_find hfind hfound
  obtain ⟨hmissing, hsame⟩ := hway hwithout hcurrent
  by_cases hhit : ∃ passed ∈ way, passed ∈ gone
  · have hpath := followable_of_locate (locate_of_find hfind hfound)
    have hnothing := hmissing hhit
    refine ⟨now, [], ?_, hcleared, fun _ hother => absurd hother List.not_mem_nil, ?_⟩
    · rw [removeImported, unlink, if_neg hpath.short, trimmed_of_find hfind hfound, hnothing]
    · refine Classical.byContradiction fun hnone => ?_
      have hstays := (hcleared.open?_eq hproper hopen hleaf).2
        fun earlier hearlier htakes => hnone ⟨earlier, hearlier, htakes⟩
      rw [open?, find_follow_eq_notFound hnothing] at hstays
      cases hstays
  · have hthere := hsame fun passed hpassed hgone => hhit ⟨passed, hpassed, hgone⟩
    obtain ⟨-, -, -, hremoved⟩ := removes_of_find hthere hfound
    exact ⟨_, [path], hremoved, .remove hcleared hopen hleaf hthere hremoved,
      fun _ => List.mem_singleton.mp, path, List.mem_cons_self, takes_self hproper hopen hleaf⟩

end Cleared

end FileSystem

end AudioCatalog
