import AudioCatalog.Proofs.FileSystem.Children

/-!
# Path names made absolute

The path name of a directory leads from the root to this directory, by the names of the
directories on the way.  So a relative path name leads to the same place as the path name that
it has inside of the directory where relative path names start from.
-/

namespace AudioCatalog

/-! ## Path names of locations -/

/-- What a path name is inside of a directory.  An absolute path name is the same everywhere. -/
def Pathname.inside (path directory : Pathname) : Pathname :=
  if path.isAbsolute then path else directory.child path.bytes

namespace FileSystem

variable {κ : Type} {fs : FileSystem κ} {location : Location}

theorem pathTo_bytes_ne_nil (location : Location) : (pathTo location).bytes ≠ [] := by
  induction location with
  | nil => exact List.cons_ne_nil _ _
  | cons name location ih =>
      intro hnil
      have hlength := (pathTo location).length_add_le_child name
      have hpos := List.length_pos_iff.mpr ih
      have hnone : ((pathTo location).child name).bytes.length = 0 := congrArg List.length hnil
      omega

theorem isAbsolute_pathTo (location : Location) : (pathTo location).isAbsolute = true := by
  induction location with
  | nil => rfl
  | cons name location ih =>
      exact (Pathname.isAbsolute_child (pathTo_bytes_ne_nil location) name).trans ih

variable (hplain : ∀ name ∈ location, PlainName name)

include hplain

/-- The path name of a location has the names that lead there behind the first slash. -/
theorem stem_pathTo : (pathTo location).stem = [] :: location.reverse := by
  induction location with
  | nil => rfl
  | cons name location ih =>
      rw [List.forall_mem_cons] at hplain
      show ((pathTo location).child name).stem = _
      rw [Pathname.stem_child (pathTo_bytes_ne_nil location) hplain.1, ih hplain.2,
        List.reverse_cons, List.cons_append]

theorem contains_zero_pathTo : (pathTo location).bytes.contains 0 = false := by
  induction location with
  | nil => rfl
  | cons name location ih =>
      rw [List.forall_mem_cons] at hplain
      show ((pathTo location).child name).bytes.contains 0 = false
      rw [Pathname.contains_zero_child, ih hplain.2, Bool.false_or]
      simpa using hplain.1.nul_free

omit hplain

/-- The current directory has a path name where it is there. -/
theorem exists_of_currentPath {directory : Pathname} (hcurrent : fs.currentPath = .ok directory) :
    directory = pathTo fs.current ∧ ∃ entries, fs.directory? fs.current = some entries := by
  rw [currentPath] at hcurrent
  split at hcurrent
  · rename_i entries hentries
    cases hcurrent
    exact ⟨rfl, entries, hentries⟩
  · cases hcurrent

/-! ## Walks through directories -/

/-- A walk by the names of directories goes from each to the next. -/
theorem walk_descend {names : List Name} (hnames : ∀ name ∈ names, PlainName name)
    {follow : Bool} {links : Nat} {rest : List Name} {here inner : Directory κ}
    (hfound : here.descend? names = some (.directory inner)) :
    fs.walk follow links location (some here) (names ++ rest) =
      fs.walk follow links (names.reverse ++ location) (some inner) rest := by
  induction names generalizing location here with
  | nil =>
      cases hfound
      rfl
  | cons name names ih =>
      rw [List.forall_mem_cons] at hnames
      obtain ⟨hname, hnames⟩ := hnames
      have hskip : ¬ (name = [] || name = [Pathname.dot]) = true := by
        simp [hname.nonempty, hname.not_dot]
      have hlength : ¬ name.length > nameLimit := Nat.not_lt.mpr hname.short
      obtain ⟨next, hchild, hnext⟩ : ∃ next : Directory κ,
          here.child? name = some (.directory next) ∧
            next.descend? names = some (.directory inner) := by
        cases names with
        | nil => exact ⟨inner, hfound, rfl⟩
        | cons second names =>
            exact Directory.descend?_eq_some_of_cons (List.cons_ne_nil _ _) hfound
      rw [List.cons_append, walk_directory hskip hname.not_dots hlength hchild, ih hnames hnext,
        List.reverse_cons, List.append_assoc, List.singleton_append]

/-- Where the segments of a path name lead to, however long the path name is. -/
def destination (fs : FileSystem κ) (path : Pathname) (follow : Bool) :
    Except FileError (Place κ) :=
  fs.walk follow linkLimit (fs.startOf path) (fs.directory? (fs.startOf path)) path.segments

/-- Inside of the directory where relative path names start from, a path name leads to where it
leads to anyway. -/
theorem destination_inside {entries : Directory κ}
    (hcurrent : fs.directory? fs.current = some entries)
    (hplain : ∀ name ∈ fs.current, PlainName name) (path : Pathname) (follow : Bool) :
    fs.destination (path.inside (pathTo fs.current)) follow = fs.destination path follow := by
  rw [Pathname.inside]
  split
  case isTrue => rfl
  case isFalse hrelative =>
    have hnonempty := pathTo_bytes_ne_nil fs.current
    have hjoined : fs.startOf ((pathTo fs.current).child path.bytes) = [] :=
      if_pos ((Pathname.isAbsolute_child hnonempty path.bytes).trans (isAbsolute_pathTo _))
    have hstart : fs.startOf path = fs.current := if_neg hrelative
    have hroot : fs.directory? [] = some fs.root := rfl
    have hnames : ∀ name ∈ fs.current.reverse, PlainName name := by simpa using hplain
    have hfound : fs.root.descend? fs.current.reverse = some (.directory entries) :=
      directory?_eq_some_iff.mp hcurrent
    rw [destination, destination, hjoined, hstart, hroot, hcurrent,
      Pathname.segments_child_eq hnonempty, stem_pathTo hplain, List.cons_append,
      walk_skip (by decide), walk_descend hnames hfound, List.reverse_reverse, List.append_nil]
    rfl

/-- The same holds of what is there, as long as the longer path name can be followed. -/
theorem locate_inside {entries : Directory κ} (hcurrent : fs.directory? fs.current = some entries)
    (hplain : ∀ name ∈ fs.current, PlainName name) {path : Pathname} (hpath : path.bytes ≠ [])
    (hshort : (path.inside (pathTo fs.current)).bytes.length ≤ pathLimit) (follow : Bool) :
    fs.locate (path.inside (pathTo fs.current)) follow = fs.locate path follow := by
  have hinside := destination_inside hcurrent hplain path follow
  rw [Pathname.inside] at hshort hinside ⊢
  split
  case isTrue => rfl
  case isFalse hrelative =>
    rw [if_neg hrelative] at hshort hinside
    have hzero : ((pathTo fs.current).child path.bytes).bytes.contains 0 =
        path.bytes.contains 0 := by
      rw [Pathname.contains_zero_child, contains_zero_pathTo hplain, Bool.false_or]
    cases hnul : path.bytes.contains 0 with
    | true =>
        rw [hnul] at hzero
        rw [locate, if_pos hzero, locate, if_pos hnul]
    | false =>
        rw [hnul] at hzero
        have hlength := (pathTo fs.current).length_add_le_child path.bytes
        have hjoined : Followable ((pathTo fs.current).child path.bytes) :=
          ⟨hzero, Pathname.child_bytes_ne_nil _ hpath, Nat.not_lt.mpr hshort⟩
        have hfollowable : Followable path := ⟨hnul, hpath, by omega⟩
        rw [locate_of_followable hjoined, locate_of_followable hfollowable]
        exact hinside

end FileSystem

end AudioCatalog
