import AudioCatalog.Proofs.FileSystem.Root

/-!
# Names inside a directory

The path name of an entry of a directory leads to this entry, wherever the path name of the
directory leads through: what is found behind a directory depends on the directory only, and on
the number of links that may still be followed.
-/

namespace AudioCatalog

namespace Pathname

/-! ## Path names below a directory -/

/-- The path name of what some names lead to from a directory, the outermost first. -/
def below (directory : Pathname) (names : List Name) : Pathname :=
  names.foldl child directory

/-- The segments of a path name without the empty one behind a slash at its end. -/
def stem (path : Pathname) : List Name :=
  if path.bytes.getLast? = some slash then path.segments.dropLast else path.segments

theorem splitBytes_ne_nil (bytes : List UInt8) : splitBytes bytes ≠ [] := by
  cases bytes with
  | nil => exact List.cons_ne_nil _ _
  | cons byte rest =>
      rw [splitBytes]
      split
      · exact List.cons_ne_nil _ _
      · split <;> exact List.cons_ne_nil _ _

theorem splitBytes_append_slash (front back : List UInt8) :
    splitBytes (front ++ slash :: back) = splitBytes front ++ splitBytes back := by
  induction front with
  | nil =>
      show splitBytes (slash :: back) = [[]] ++ splitBytes back
      rw [splitBytes, if_pos rfl, List.singleton_append]
  | cons byte front ih =>
      obtain ⟨segment, segments, hfront⟩ := List.exists_cons_of_ne_nil (splitBytes_ne_nil front)
      rw [List.cons_append, splitBytes, ih, splitBytes, hfront]
      split <;> rfl

variable {directory : Pathname} {name : Name} {names : List Name}

theorem segments_child_eq (hdirectory : directory.bytes ≠ []) (bytes : List UInt8) :
    (directory.child bytes).segments = directory.stem ++ splitBytes bytes := by
  obtain ⟨front⟩ := directory
  rw [child, stem, segments, segments]
  simp only [hdirectory, decide_false, Bool.false_or, decide_eq_true_eq]
  split
  case isTrue hslash =>
    obtain ⟨front, rfl⟩ := List.getLast?_eq_some_iff.mp hslash
    simp only [List.append_assoc, List.singleton_append, splitBytes_append_slash]
    rw [splitBytes, List.dropLast_concat]
  case isFalse => simp only [splitBytes_append_slash]

theorem segments_child (hdirectory : directory.bytes ≠ []) (hname : slash ∉ name) :
    (directory.child name).segments = directory.stem ++ [name] := by
  rw [segments_child_eq hdirectory, splitBytes_of_not_mem hname]

theorem isAbsolute_child (hdirectory : directory.bytes ≠ []) (bytes : List UInt8) :
    (directory.child bytes).isAbsolute = directory.isAbsolute := by
  obtain ⟨first, rest, hfirst⟩ := List.exists_cons_of_ne_nil hdirectory
  rw [isAbsolute, isAbsolute, child, hfirst]
  split <;> rfl

theorem contains_zero_child (directory : Pathname) (bytes : List UInt8) :
    (directory.child bytes).bytes.contains 0 =
      (directory.bytes.contains 0 || bytes.contains 0) := by
  have hslash : (0 : UInt8) ≠ slash := by decide
  rw [child]
  split <;> simp [hslash]

theorem child_bytes_ne_nil (directory : Pathname) (hname : name ≠ []) :
    (directory.child name).bytes ≠ [] := by
  rw [child]
  split
  · exact List.append_ne_nil_of_right_ne_nil _ hname
  · exact List.append_ne_nil_of_right_ne_nil _ (List.cons_ne_nil _ _)

/-- Behind a name no slash is left out. -/
theorem stem_child (hdirectory : directory.bytes ≠ []) (hname : PlainName name) :
    (directory.child name).stem = directory.stem ++ [name] := by
  obtain ⟨front, last, rfl⟩ := (List.eq_nil_or_concat name).resolve_left hname.nonempty
  have hfree : last ≠ slash := by
    rintro rfl
    exact hname.slash_free (by simp)
  have hlast : (directory.child (front.concat last)).bytes.getLast? ≠ some slash := by
    rw [child, List.concat_eq_append]
    split <;> simpa [List.getLast?_cons] using hfree
  rw [stem, if_neg hlast, segments_child hdirectory hname.slash_free]

theorem segments_below (hdirectory : directory.bytes ≠ [])
    (hnames : ∀ name ∈ names, PlainName name) (hsome : names ≠ []) :
    (directory.below names).segments = directory.stem ++ names := by
  induction names generalizing directory with
  | nil => exact absurd rfl hsome
  | cons name rest ih =>
      rw [List.forall_mem_cons] at hnames
      obtain ⟨hname, hrest⟩ := hnames
      show ((directory.child name).below rest).segments = _
      cases rest with
      | nil => exact segments_child hdirectory hname.slash_free
      | cons next rest =>
          rw [ih (child_bytes_ne_nil directory hname.nonempty) hrest (List.cons_ne_nil _ _),
            stem_child hdirectory hname, List.append_assoc, List.singleton_append]

/-- Different names lead to different path names below a directory. -/
theorem below_inj (hdirectory : directory.bytes ≠ []) {others : List Name}
    (hnames : ∀ name ∈ names, PlainName name) (hothers : ∀ name ∈ others, PlainName name)
    (hsome : names ≠ []) (hmore : others ≠ [])
    (hsame : directory.below names = directory.below others) : names = others := by
  have hsegments := congrArg segments hsame
  rw [segments_below hdirectory hnames hsome, segments_below hdirectory hothers hmore] at hsegments
  exact List.append_cancel_left hsegments

theorem length_add_le_child (directory : Pathname) (name : Name) :
    directory.bytes.length + name.length ≤ (directory.child name).bytes.length := by
  rw [child]
  split <;> simp only [List.length_append, List.length_cons] <;> omega

theorem length_child (directory : Pathname) (hname : name ≠ []) :
    directory.bytes.length < (directory.child name).bytes.length := by
  have hlength := List.length_pos_iff.mpr hname
  have hchild := length_add_le_child directory name
  omega

/-- The last component is the name behind the last slash. -/
theorem fileName?_of_segments {path : Pathname} {front : List Name}
    (hsegments : path.segments = front ++ [name]) (hname : PlainName name) :
    path.fileName? = some name := by
  have hcomponent : component? name = some (.normal name) := by
    have hskip : ¬ (name = [] || name = [dot]) = true := by simp [hname.nonempty, hname.not_dot]
    rw [component?, if_neg hskip, if_neg hname.not_dots]
  have hinner : path.segments.filterMap component? =
      front.filterMap component? ++ [.normal name] := by
    rw [hsegments, List.filterMap_append, List.filterMap_cons_some hcomponent, List.filterMap_nil]
  have hlast : path.components.getLast? = some (.normal name) := by
    rw [components, hinner]
    split
    · rw [← List.cons_append, List.getLast?_concat]
    · split
      · rw [← List.cons_append, List.getLast?_concat]
      · rw [List.getLast?_concat]
  rw [fileName?, hlast]

/-- Whether a path name below a directory has the extension of an audio file depends on the last
name only. -/
theorem namesAudio_child (hdirectory : directory.bytes ≠ []) (hname : PlainName name) :
    (directory.child name).namesAudio = (Pathname.mk name).namesAudio := by
  have hchild := fileName?_of_segments (segments_child hdirectory hname.slash_free) hname
  have hsegments : (Pathname.mk name).segments = [] ++ [name] :=
    splitBytes_of_not_mem hname.slash_free
  have halone := fileName?_of_segments hsegments hname
  rw [namesAudio, namesAudio, extension?, extension?, hchild, halone]

end Pathname

namespace FileSystem

variable {κ : Type} {fs : FileSystem κ} {entries : Directory κ} {location : Location}

/-! ## Walks that go on behind a directory -/

/-- Whether segments are some others, up to an empty one at the end. -/
def EndsIn (segments front : List Name) : Prop :=
  segments = front ∨ segments = front ++ [[]]

theorem EndsIn.cons_cases {segment : Name} {rest front : List Name}
    (hfront : EndsIn (segment :: rest) front) :
    (∃ tail, front = segment :: tail ∧ EndsIn rest tail) ∨
      front = [] ∧ segment = [] ∧ rest = [] := by
  cases front with
  | nil => exact .inr (by simpa [EndsIn] using hfront)
  | cons first tail =>
      rcases hfront with hfront | hfront
      · cases hfront
        exact .inl ⟨rest, rfl, .inl rfl⟩
      · cases hfront
        exact .inl ⟨tail, rfl, .inr rfl⟩

theorem EndsIn.exists_tail {segment : Name} {rest front : List Name}
    (hfront : EndsIn (segment :: rest) front) (hsegment : segment ≠ []) :
    ∃ tail, front = segment :: tail ∧ EndsIn rest tail :=
  hfront.cons_cases.resolve_right fun hnil => hsegment hnil.2.1

theorem EndsIn.append {segments front : List Name} (hfront : EndsIn segments front)
    (more : List Name) : EndsIn (more ++ segments) (more ++ front) := by
  rcases hfront with rfl | rfl
  · exact .inl rfl
  · exact .inr (List.append_assoc ..).symm

/-- A walk that ends at a directory goes on from there, with the links that may still be
followed, whatever comes behind it.  An empty segment at the end makes no difference. -/
theorem exists_walk_behind (fs : FileSystem κ) (links : Nat) (start : Location)
    (here : Option (Directory κ)) (segments : List Name) {front : List Name} {trailing : Bool}
    (hhere : ∀ entries, here = some entries → fs.directory? start = some entries)
    (hwalk : fs.walk true links start here segments =
      .ok (.present location (.directory entries) trailing))
    (hfront : EndsIn segments front) :
    ∃ left reached, reached.getD [] = entries ∧
      (∀ entries, reached = some entries → fs.directory? location = some entries) ∧
      ∀ follow rest, rest ≠ [] → fs.walk follow links start here (front ++ rest) =
        fs.walk follow left location reached rest := by
  generalize hall : true = all at hwalk
  fun_induction walk fs all links start here segments generalizing front with
  | case1 links start here =>
      cases hwalk
      obtain rfl : front = [] := by simpa [EndsIn] using hfront
      exact ⟨links, here, rfl, hhere, fun _ _ _ => rfl⟩
  | case2 links start here segment rest hskip ih =>
      rcases hfront.cons_cases with ⟨tail, rfl, htail⟩ | ⟨rfl, rfl, rfl⟩
      · obtain ⟨left, reached, hentries, hreached, hon⟩ := ih hhere htail hwalk
        refine ⟨left, reached, hentries, hreached, fun follow more hmore => ?_⟩
        rw [List.cons_append, walk_skip hskip, hon follow more hmore]
      · rw [walk] at hwalk
        cases hwalk
        exact ⟨links, here, rfl, hhere, fun _ _ _ => rfl⟩
  | case3 links start here rest hskip ih =>
      obtain ⟨tail, rfl, htail⟩ := hfront.exists_tail (List.cons_ne_nil _ _)
      obtain ⟨left, reached, hentries, hreached, hon⟩ := ih (fun _ h => h) htail hwalk
      refine ⟨left, reached, hentries, hreached, fun follow more hmore => ?_⟩
      rw [List.cons_append, walk_up, hon follow more hmore]
  | case8 links start segment rest hskip hup inside hlength inner hchild ih =>
      obtain ⟨tail, rfl, htail⟩ := hfront.exists_tail fun heq => hskip (by simp [heq])
      have hinner : ∀ found, some inner = some found →
          fs.directory? (segment :: start) = some found := by
        intro found hfound
        cases hfound
        rw [directory?_eq_some_iff, node?_cons (hhere inside rfl), hchild]
      obtain ⟨left, reached, hentries, hreached, hon⟩ := ih hinner htail hwalk
      refine ⟨left, reached, hentries, hreached, fun follow more hmore => ?_⟩
      rw [List.cons_append, walk_directory hskip hup hlength hchild, hon follow more hmore]
  | case9 links start segment rest hskip hup inside hlength target hchild hlast =>
      rw [← hall] at hlast
      simp at hlast
  | case11 start segment rest hskip hup inside hlength target hchild hlast links habsolute ih =>
      obtain ⟨tail, rfl, htail⟩ := hfront.exists_tail fun heq => hskip (by simp [heq])
      obtain ⟨left, reached, hentries, hreached, hon⟩ :=
        ih (fun found hfound => hfound ▸ rfl) (htail.append _) hwalk
      refine ⟨left, reached, hentries, hreached, fun follow more hmore => ?_⟩
      rw [List.cons_append, walk_link hskip hup hlength (by simp [hmore]) hchild,
        if_pos habsolute, ← List.append_assoc, hon follow more hmore]
  | case12 start segment rest hskip hup inside hlength target hchild hlast links hrelative ih =>
      obtain ⟨tail, rfl, htail⟩ := hfront.exists_tail fun heq => hskip (by simp [heq])
      obtain ⟨left, reached, hentries, hreached, hon⟩ := ih hhere (htail.append _) hwalk
      refine ⟨left, reached, hentries, hreached, fun follow more hmore => ?_⟩
      rw [List.cons_append, walk_link hskip hup hlength (by simp [hmore]) hchild,
        if_neg hrelative, ← List.append_assoc, hon follow more hmore]
  | case13 links start segment rest hskip hup last inside hlength found hdirectory hlink hchild =>
      cases hwalk
      exact absurd rfl (hdirectory _)
  -- All other walks end with an error or with nothing.
  | _ => cases hwalk

/-! ## Entries of a directory -/

section Entries

variable {directory : Pathname} {name : Name} {node : Node κ}

theorem locate_of_find_directory
    (hfind : fs.find directory true = .ok (location, .directory entries)) :
    ∃ trailing,
      fs.locate directory true = .ok (.present location (.directory entries) trailing) := by
  rw [find] at hfind
  split at hfind
  · cases hfind
  · cases hfind
  · split at hfind
    · cases hfind
    · cases hfind
      exact ⟨_, ‹_›⟩

theorem endsIn_stem (path : Pathname) : EndsIn path.segments path.stem := by
  rw [Pathname.stem]
  split
  case isTrue hslash =>
    obtain ⟨front, -, hfront⟩ := splitBytes_eq_append hslash
    rw [Pathname.segments, hfront, List.dropLast_concat]
    exact .inr rfl
  case isFalse => exact .inl rfl

theorem Followable.child (hdirectory : Followable directory) (hname : PlainName name)
    (hshort : ¬ (directory.child name).bytes.length > pathLimit) :
    Followable (directory.child name) where
  nul_free := by
    rw [Pathname.contains_zero_child, hdirectory.nul_free, Bool.false_or]
    simpa using hname.nul_free
  nonempty := directory.child_bytes_ne_nil hname.nonempty
  short := hshort

theorem startOf_child (hdirectory : directory.bytes ≠ []) :
    fs.startOf (directory.child name) = fs.startOf directory := by
  rw [startOf, startOf, Pathname.isAbsolute_child hdirectory]

/-- The path name of an entry is followed to the directory, where the name is looked up. -/
theorem exists_locate_child (hfind : fs.find directory true = .ok (location, .directory entries))
    (hname : PlainName name) (hshort : ¬ (directory.child name).bytes.length > pathLimit) :
    ∃ left reached, reached.getD [] = entries ∧
      (∀ entries, reached = some entries → fs.directory? location = some entries) ∧
      ∀ follow, fs.locate (directory.child name) follow =
        fs.walk follow left location reached [name] := by
  obtain ⟨trailing, hlocate⟩ := locate_of_find_directory hfind
  have hfollowable := followable_of_locate hlocate
  rw [locate_of_followable hfollowable] at hlocate
  obtain ⟨left, reached, hentries, hreached, hon⟩ :=
    exists_walk_behind fs _ _ _ _ (fun _ h => h) hlocate (endsIn_stem directory)
  refine ⟨left, reached, hentries, hreached, fun follow => ?_⟩
  rw [locate_of_followable (hfollowable.child hname hshort), startOf_child hfollowable.nonempty,
    Pathname.segments_child hfollowable.nonempty hname.slash_free,
    hon follow [name] (List.cons_ne_nil _ _)]

/-- The entries of a directory that a path name leads to are those of a directory that is there,
unless it was removed. -/
theorem directory?_of_find (hfind : fs.find directory true = .ok (location, .directory entries)) :
    entries = [] ∨ fs.directory? location = some entries := by
  obtain ⟨trailing, hlocate⟩ := locate_of_find_directory hfind
  rw [locate_of_followable (followable_of_locate hlocate)] at hlocate
  obtain ⟨-, reached, hentries, hreached, -⟩ :=
    exists_walk_behind fs _ _ _ _ (fun _ h => h) hlocate (.inl rfl)
  cases reached with
  | none => exact .inl hentries.symm
  | some found =>
      cases hentries
      exact .inr (hreached _ rfl)

theorem followable_of_find {path : Pathname} {follow : Bool} {place : Location × Node κ}
    (hfind : fs.find path follow = .ok place) : Followable path := by
  rw [find] at hfind
  split at hfind
  · cases hfind
  · cases hfind
  · exact followable_of_locate ‹_›

theorem find_child_of_too_long (hlong : (directory.child name).bytes.length > pathLimit)
    (follow : Bool) (place : Location × Node κ) :
    fs.find (directory.child name) follow ≠ .ok place :=
  fun hfind => (followable_of_find hfind).short hlong

theorem find_child_of_none (hfind : fs.find directory true = .ok (location, .directory entries))
    (hname : PlainName name) (hchild : entries.child? name = none) (follow : Bool)
    (place : Location × Node κ) : fs.find (directory.child name) follow ≠ .ok place := by
  by_cases hlong : (directory.child name).bytes.length > pathLimit
  · exact find_child_of_too_long hlong follow place
  · obtain ⟨left, reached, rfl, -, hlocate⟩ := exists_locate_child hfind hname hlong
    have hskip : ¬ (name = [] || name = [Pathname.dot]) = true := by
      simp [hname.nonempty, hname.not_dot]
    have hshort : ¬ name.length > nameLimit := Nat.not_lt.mpr hname.short
    intro hfound
    rw [find, hlocate, walk, if_neg hskip, if_neg hname.not_dots] at hfound
    cases reached with
    | none => cases hfound
    | some inside =>
        rw [Option.getD_some] at hchild
        simp only [if_neg hshort, hchild] at hfound
        cases hfound

/-- The path name of an entry leads to it, where a link is found only if it is not followed. -/
theorem find_child (hfind : fs.find directory true = .ok (location, .directory entries))
    (hname : PlainName name) (hchild : entries.child? name = some node)
    (hshort : ¬ (directory.child name).bytes.length > pathLimit) {follow : Bool}
    (hfollow : follow = false ∨ ∀ target, node ≠ .link target) :
    fs.find (directory.child name) follow = .ok (name :: location, node) := by
  obtain ⟨left, reached, rfl, -, hlocate⟩ := exists_locate_child hfind hname hshort
  have hskip : ¬ (name = [] || name = [Pathname.dot]) = true := by
    simp [hname.nonempty, hname.not_dot]
  have hlength : ¬ name.length > nameLimit := Nat.not_lt.mpr hname.short
  rw [find, hlocate]
  cases reached with
  | none => cases hchild
  | some inside =>
      rw [Option.getD_some] at hchild
      cases node with
      | directory inner =>
          rw [walk_directory hskip hname.not_dots hlength hchild, walk]
          rfl
      | link target =>
          obtain rfl := hfollow.resolve_right fun hno => hno target rfl
          rw [walk_unfollowed hskip hname.not_dots hlength rfl hchild]
          rfl
      | file body modified =>
          rw [walk_end hskip hname.not_dots hlength (by simp) (by simp) rfl hchild]
          rfl
      | special =>
          rw [walk_end hskip hname.not_dots hlength (by simp) (by simp) rfl hchild]
          rfl

end Entries

end FileSystem

end AudioCatalog
