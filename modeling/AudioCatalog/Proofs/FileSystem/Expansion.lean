import AudioCatalog.FileSystem.Expand
import AudioCatalog.Proofs.FileSystem.Listing
import Mathlib.Data.List.Nodup

/-!
# What a directory is expanded to

A directory is expanded to the audio files that some names lead to from it.  The walk finds their
path names, each once, on every structure of links: each nested path name is longer, so the limit
of their length is a limit of the depth too.
-/

namespace AudioCatalog.FileSystem

variable {κ : Type} {fs : FileSystem κ}

/-! ## What the walk makes of an entry -/

/-- The audio files that the walk finds through an entry of a directory. -/
def filesOf (fs : FileSystem κ) (depth : Nat) (above : List Location) (directory : Pathname)
    (location : Location) (entry : Name × Node κ) : List Pathname :=
  match entry.2 with
  | .directory _ => fs.audioFiles depth (location :: above) (directory.child entry.1)
  | .file .. =>
    if (directory.child entry.1).namesAudio then [directory.child entry.1] else []
  | .special => []
  | .link _ =>
    match fs.find (directory.child entry.1) true with
    | .ok (target, .directory _) =>
      if target = location || above.contains target then []
      else fs.audioFiles depth (location :: above) (directory.child entry.1)
    | .ok (_, .file ..) =>
      if (directory.child entry.1).namesAudio then [directory.child entry.1] else []
    | _ => []

section Entry

variable {depth : Nat} {entered : List Location} {directory : Pathname} {location : Location}
  {entries : Directory κ} {name : Name} {node : Node κ}

theorem audioFiles_succ (hfind : fs.find directory true = .ok (location, .directory entries)) :
    fs.audioFiles (depth + 1) entered directory =
      entries.flatMap (fs.filesOf depth entered directory location) := by
  rw [audioFiles, hfind]
  rfl

theorem audioFiles_of_enters?_eq_none (hnone : fs.enters? directory = none) :
    fs.audioFiles depth entered directory = [] := by
  cases depth with
  | zero => rfl
  | succ depth =>
      rw [audioFiles]
      split
      · rename_i hfind
        rw [enters?, hfind] at hnone
        cases hnone
      · rfl

theorem exists_find_of_enters? (henters : fs.enters? directory = some location) :
    ∃ entries, fs.find directory true = .ok (location, .directory entries) := by
  rw [enters?] at henters
  split at henters
  · rename_i found entries hfind
    cases henters
    exact ⟨entries, hfind⟩
  · cases henters

theorem enters?_of_find (hfind : fs.find directory true = .ok (location, .directory entries)) :
    fs.enters? directory = some location := by
  rw [enters?, hfind]

theorem not_endsAt_of_find {result : Except FileError (Location × Node κ)}
    (hplace : fs.find (directory.child name) true = result)
    (hbeyond : ¬ fs.HoldsBeyond directory name)
    (hfile : ∀ found body modified, result ≠ .ok (found, .file body modified)) :
    ¬ fs.EndsAt directory name := by
  rintro ⟨⟨found, body, modified, hfound⟩ | hholds, -⟩
  · exact hfile found body modified (hplace.symm.trans hfound)
  · exact hbeyond hholds

/-- Whether names of which the first one is that of an entry lead to an audio file. -/
def ListedThrough (fs : FileSystem κ) (entered : List Location) (directory : Pathname)
    (location : Location) (name : Name) (path : Pathname) : Prop :=
  ∃ rest, path = directory.below (name :: rest) ∧
    fs.Admits (location :: entered) (directory.child name) ∧
      (rest = [] ∧ fs.EndsAt directory name ∨
        fs.Listed (location :: entered) (directory.child name) rest)

section Ways

variable {path : Pathname}

/-- Where the walk goes on, the files are those that it finds inside. -/
theorem listedThrough_iff_inside (hadmits : fs.Admits (location :: entered) (directory.child name))
    (hends : ¬ fs.EndsAt directory name) :
    fs.ListedThrough entered directory location name path ↔
      ∃ rest, path = (directory.child name).below rest ∧
        fs.Listed (location :: entered) (directory.child name) rest := by
  refine exists_congr fun rest => and_congr_right fun _ => ?_
  rw [and_iff_right hadmits, or_iff_right fun h => hends h.2]

/-- Where the walk cannot go on, there is one file at most. -/
theorem listedThrough_iff_file (hnone : fs.enters? (directory.child name) = none)
    (hfile : fs.LeadsToFile (directory.child name) ∨ fs.HoldsBeyond directory name) :
    fs.ListedThrough entered directory location name path ↔
      path ∈ if (directory.child name).namesAudio then [directory.child name] else [] := by
  have hadmits : fs.Admits (location :: entered) (directory.child name) := by
    intro _ target htarget
    rw [hnone] at htarget
    cases htarget
  constructor
  · rintro ⟨rest, rfl, -, ⟨rfl, -, haudio⟩ | hlisted⟩
    · rw [if_pos haudio]
      exact List.mem_singleton.mpr rfl
    · have henters := hlisted.isSome_enters?
      rw [hnone] at henters
      cases henters
  · intro hpath
    split at hpath
    · rename_i haudio
      rw [List.mem_singleton.mp hpath]
      exact ⟨[], rfl, hadmits, .inl ⟨rfl, hfile, haudio⟩⟩
    · cases hpath

/-- Where the walk may not go on and no file is, nothing is found. -/
theorem not_listedThrough (hends : ¬ fs.EndsAt directory name)
    (hblocked : fs.Admits (location :: entered) (directory.child name) →
      fs.enters? (directory.child name) = none) :
    ¬ fs.ListedThrough entered directory location name path := by
  rintro ⟨rest, -, hadmits, ⟨-, hfile⟩ | hlisted⟩
  · exact hends hfile
  · have henters := hlisted.isSome_enters?
    rw [hblocked hadmits] at henters
    cases henters

end Ways

variable (hfind : fs.find directory true = .ok (location, .directory entries))
  (hname : PlainName name) (hchild : entries.child? name = some node)

include hfind hchild

theorem exists_file_of_holdsBeyond (hbeyond : fs.HoldsBeyond directory name) :
    ∃ body modified, node = .file body modified := by
  obtain ⟨-, found, inside, body, modified, hfound, hfile⟩ := hbeyond
  rw [hfind] at hfound
  cases hfound
  rw [hchild] at hfile
  cases hfile
  exact ⟨body, modified, rfl⟩

include hname

/-- An entry is what its path name leads to, if anything is, unless it is a link that is
followed. -/
theorem eq_of_find_child {follow : Bool} (hfollow : follow = false ∨ ∀ target, node ≠ .link target)
    {place : Location × Node κ} (hplace : fs.find (directory.child name) follow = .ok place) :
    place = (name :: location, node) := by
  by_cases hlong : (directory.child name).bytes.length > pathLimit
  · exact absurd hplace (find_child_of_too_long hlong follow place)
  · rw [find_child hfind hname hchild hlong hfollow] at hplace
    cases hplace
    rfl

theorem admits_of_not_link (hnode : ∀ target, node ≠ .link target) (above : List Location) :
    fs.Admits above (directory.child name) := by
  rintro ⟨found, target, hplace⟩
  cases eq_of_find_child hfind hname hchild (.inl rfl) hplace
  exact absurd rfl (hnode target)

/-- What is neither a link nor a directory is not entered. -/
theorem enters?_child_eq_none (hlink : ∀ target, node ≠ .link target)
    (hdirectory : ∀ inner, node ≠ .directory inner) :
    fs.enters? (directory.child name) = none := by
  cases henters : fs.enters? (directory.child name) with
  | none => rfl
  | some target =>
      obtain ⟨inner, hplace⟩ := exists_find_of_enters? henters
      cases eq_of_find_child hfind hname hchild (.inr hlink) hplace
      exact absurd rfl (hdirectory inner)

/-- What is neither a link nor a file does not end a walk. -/
theorem not_endsAt (hlink : ∀ target, node ≠ .link target)
    (hfile : ∀ body modified, node ≠ .file body modified) : ¬ fs.EndsAt directory name := by
  rintro ⟨⟨found, body, modified, hplace⟩ | hbeyond, -⟩
  · cases eq_of_find_child hfind hname hchild (.inr hlink) hplace
    exact absurd rfl (hfile body modified)
  · obtain ⟨body, modified, rfl⟩ := exists_file_of_holdsBeyond hfind hchild hbeyond
    exact absurd rfl (hfile body modified)

variable (hinside : ∀ path,
  path ∈ fs.audioFiles depth (location :: entered) (directory.child name) ↔
    ∃ rest, path = (directory.child name).below rest ∧
      fs.Listed (location :: entered) (directory.child name) rest)

include hinside

/-- A link to a directory is followed, unless the walk is inside of this directory. -/
theorem mem_filesOf_linked_directory_iff {target : Pathname} {found : Location}
    {inner : Directory κ} (hlink : node = .link target)
    (hplace : fs.find (directory.child name) true = .ok (found, .directory inner))
    (hends : ¬ fs.EndsAt directory name) (path : Pathname) :
    path ∈ fs.filesOf depth entered directory location (name, node) ↔
      fs.ListedThrough entered directory location name path := by
  subst hlink
  have hislink : fs.IsLink (directory.child name) :=
    ⟨_, target, find_child hfind hname hchild
      (fun hlong => find_child_of_too_long hlong true _ hplace) (.inl rfl)⟩
  have henters := enters?_of_find hplace
  simp only [filesOf, hplace]
  split
  case isTrue hinner =>
    refine iff_of_false List.not_mem_nil (not_listedThrough hends fun hadmits => ?_)
    refine absurd ?_ (hadmits hislink found henters)
    simpa using hinner
  case isFalse houter =>
    rw [hinside, listedThrough_iff_inside (fun _ other hother => ?_) hends]
    rw [henters] at hother
    cases hother
    simpa using houter

/-- A link is followed to a file, or to a directory that the walk is not inside of. -/
theorem mem_filesOf_link_iff {target : Pathname} (hlink : node = .link target) (path : Pathname) :
    path ∈ fs.filesOf depth entered directory location (name, node) ↔
      fs.ListedThrough entered directory location name path := by
  have hbeyond : ¬ fs.HoldsBeyond directory name := by
    intro hbeyond
    obtain ⟨_, _, hfile⟩ := exists_file_of_holdsBeyond hfind hchild hbeyond
    rw [hlink] at hfile
    cases hfile
  cases hplace : fs.find (directory.child name) true with
  | error error =>
      have hends := not_endsAt_of_find hplace hbeyond nofun
      simp only [filesOf, hlink, hplace]
      exact iff_of_false List.not_mem_nil (not_listedThrough hends fun _ => by rw [enters?, hplace])
  | ok place =>
      obtain ⟨found, reached⟩ := place
      cases reached with
      | directory inner =>
          exact mem_filesOf_linked_directory_iff hfind hname hchild hinside hlink hplace
            (not_endsAt_of_find hplace hbeyond nofun) path
      | file body modified =>
          have hnone : fs.enters? (directory.child name) = none := by rw [enters?, hplace]
          simp only [filesOf, hlink, hplace]
          rw [listedThrough_iff_file hnone (.inl ⟨found, body, modified, hplace⟩)]
      | link _ | special =>
          have hends := not_endsAt_of_find hplace hbeyond nofun
          simp only [filesOf, hlink, hplace]
          exact iff_of_false List.not_mem_nil
            (not_listedThrough hends fun _ => by rw [enters?, hplace])

/-- Through an entry, the walk finds the files that names lead to of which the entry has the
first one, if this holds of the walk inside of it. -/
theorem mem_filesOf_iff (path : Pathname) :
    path ∈ fs.filesOf depth entered directory location (name, node) ↔
      fs.ListedThrough entered directory location name path := by
  cases node with
  | directory inner =>
      rw [listedThrough_iff_inside (admits_of_not_link hfind hname hchild nofun _)
        (not_endsAt hfind hname hchild nofun nofun), ← hinside]
      rfl
  | file body modified =>
      have hfile : fs.LeadsToFile (directory.child name) ∨ fs.HoldsBeyond directory name := by
        by_cases hlong : (directory.child name).bytes.length > pathLimit
        · exact .inr ⟨hlong, location, entries, body, modified, hfind, hchild⟩
        · exact .inl ⟨_, body, modified, find_child hfind hname hchild hlong (.inr nofun)⟩
      rw [listedThrough_iff_file (enters?_child_eq_none hfind hname hchild nofun nofun) hfile]
      rfl
  | special =>
      have hnone := enters?_child_eq_none hfind hname hchild nofun nofun
      refine iff_of_false List.not_mem_nil (not_listedThrough ?_ fun _ => hnone)
      exact not_endsAt hfind hname hchild nofun nofun
  | link target => exact mem_filesOf_link_iff hfind hname hchild hinside rfl path

end Entry

/-! ## What the walk finds -/

section Walk

variable {entered : List Location} {directory : Pathname} {location : Location}
  {entries : Directory κ}

theorem mem_of_child? {name : Name} {node : Node κ} (hchild : entries.child? name = some node) :
    (name, node) ∈ entries := by
  rw [Directory.child?, Option.map_eq_some_iff] at hchild
  obtain ⟨⟨other, found⟩, hfound, rfl⟩ := hchild
  have hname := List.find?_some hfound
  rw [decide_eq_true_eq] at hname
  rw [← hname]
  exact List.mem_of_find?_eq_some hfound

theorem child?_of_mem (hnodup : (entries.map (·.1)).Nodup) {name : Name} {node : Node κ}
    (hmem : (name, node) ∈ entries) : entries.child? name = some node := by
  induction entries with
  | nil => cases hmem
  | cons entry rest ih =>
      rw [List.map_cons, List.nodup_cons] at hnodup
      rcases List.mem_cons.mp hmem with rfl | hmem
      · simp [Directory.child?]
      · have hne : entry.1 ≠ name := by
          rintro rfl
          exact hnodup.1 (List.mem_map.mpr ⟨_, hmem, rfl⟩)
        rw [Directory.child?, List.find?_cons_of_neg (by simpa using hne)]
        exact ih hnodup.2 hmem

theorem Orderly.plain_of_find (horderly : fs.Orderly)
    (hfind : fs.find directory true = .ok (location, .directory entries)) :
    ∀ entry ∈ entries, PlainName entry.1 := by
  rcases directory?_of_find hfind with rfl | hentries
  · exact List.forall_mem_nil _
  · exact horderly.plain location entries hentries

theorem Orderly.nodup_of_find (horderly : fs.Orderly)
    (hfind : fs.find directory true = .ok (location, .directory entries)) :
    (entries.map (·.1)).Nodup := by
  rcases directory?_of_find hfind with rfl | hentries
  · exact List.nodup_nil
  · exact horderly.distinct _ _ (directory?_eq_some_iff.mp hentries)

theorem bytes_ne_nil_of_find
    (hfind : fs.find directory true = .ok (location, .directory entries)) :
    directory.bytes ≠ [] :=
  (followable_of_find hfind).nonempty

theorem enters?_of_too_long (hlong : directory.bytes.length > pathLimit) :
    fs.enters? directory = none := by
  cases henters : fs.enters? directory with
  | none => rfl
  | some location =>
      obtain ⟨entries, hfind⟩ := exists_find_of_enters? henters
      obtain ⟨trailing, hlocate⟩ := locate_of_find_directory hfind
      exact absurd hlong (followable_of_locate hlocate).short

theorem exists_child_of_listed {name : Name} {rest : List Name}
    (hfind : fs.find directory true = .ok (location, .directory entries))
    (hlisted : fs.Listed entered directory (name :: rest)) :
    ∃ node, entries.child? name = some node := by
  have hname := hlisted.plain name List.mem_cons_self
  cases hchild : entries.child? name with
  | some node => exact ⟨node, rfl⟩
  | none =>
      have hnothing := find_child_of_none hfind hname hchild true
      obtain ⟨-, ⟨-, ⟨_, _, _, hfile⟩ | ⟨-, _, _, _, _, hfound, hfile⟩, -⟩ | hrest⟩ :=
        (listed_cons_iff (enters?_of_find hfind) hname).mp hlisted
      · exact absurd hfile (hnothing _)
      · rw [hfind] at hfound
        cases hfound
        rw [hchild] at hfile
        cases hfile
      · obtain ⟨target, henters⟩ := Option.isSome_iff_exists.mp hrest.isSome_enters?
        obtain ⟨inner, hinner⟩ := exists_find_of_enters? henters
        exact absurd hinner (hnothing _)

/-- Nothing is found from what is not a directory. -/
theorem mem_audioFiles_iff_of_none (hnone : fs.enters? directory = none) (depth : Nat)
    (path : Pathname) : path ∈ fs.audioFiles depth entered directory ↔
      ∃ names, path = directory.below names ∧ fs.Listed entered directory names := by
  rw [audioFiles_of_enters?_eq_none hnone]
  refine iff_of_false List.not_mem_nil ?_
  rintro ⟨names, -, hlisted⟩
  have henters := hlisted.isSome_enters?
  rw [hnone] at henters
  cases henters

/-- Through an entry, the walk finds the files that names lead to of which the entry has the
first one, if this holds of the walks inside of the directory. -/
theorem mem_filesOf_entry_iff (horderly : fs.Orderly) {depth : Nat}
    (hfind : fs.find directory true = .ok (location, .directory entries))
    (hinside : ∀ name, PlainName name → ∀ path,
      path ∈ fs.audioFiles depth (location :: entered) (directory.child name) ↔
        ∃ rest, path = (directory.child name).below rest ∧
          fs.Listed (location :: entered) (directory.child name) rest)
    {entry : Name × Node κ} (hentry : entry ∈ entries) (path : Pathname) :
    path ∈ fs.filesOf depth entered directory location entry ↔
      ∃ rest, path = directory.below (entry.1 :: rest) ∧
        fs.Listed entered directory (entry.1 :: rest) := by
  have hname := horderly.plain_of_find hfind entry hentry
  have hchild := child?_of_mem (horderly.nodup_of_find hfind) hentry
  simp only [listed_cons_iff (enters?_of_find hfind) hname]
  exact mem_filesOf_iff hfind hname hchild (hinside entry.1 hname) path

/-- The walk finds the files that names lead to from the directory, if the depth is enough for
path names that can be followed. -/
theorem mem_audioFiles_iff (horderly : fs.Orderly) {depth : Nat}
    (hdepth : pathLimit < directory.bytes.length + depth) (path : Pathname) :
    path ∈ fs.audioFiles depth entered directory ↔
      ∃ names, path = directory.below names ∧ fs.Listed entered directory names := by
  induction depth generalizing entered directory path with
  | zero => exact mem_audioFiles_iff_of_none (enters?_of_too_long hdepth) 0 path
  | succ depth ih =>
      cases henters : fs.enters? directory with
      | none => exact mem_audioFiles_iff_of_none henters _ path
      | some location =>
          obtain ⟨entries, hfind⟩ := exists_find_of_enters? henters
          have hinside : ∀ name, PlainName name → ∀ path,
              path ∈ fs.audioFiles depth (location :: entered) (directory.child name) ↔
                ∃ rest, path = (directory.child name).below rest ∧
                  fs.Listed (location :: entered) (directory.child name) rest := by
            intro name hname path
            have hlength := directory.length_child hname.nonempty
            exact ih (by omega) path
          rw [audioFiles_succ hfind, List.mem_flatMap]
          constructor
          · rintro ⟨entry, hentry, hpath⟩
            rw [mem_filesOf_entry_iff horderly hfind hinside hentry] at hpath
            obtain ⟨rest, hbelow, hlisted⟩ := hpath
            exact ⟨entry.1 :: rest, hbelow, hlisted⟩
          · rintro ⟨names, rfl, hlisted⟩
            obtain ⟨name, rest, rfl⟩ := List.exists_cons_of_ne_nil hlisted.ne_nil
            obtain ⟨node, hchild⟩ := exists_child_of_listed hfind hlisted
            have hentry := mem_of_child? hchild
            refine ⟨(name, node), hentry, ?_⟩
            exact (mem_filesOf_entry_iff horderly hfind hinside hentry _).mpr ⟨rest, rfl, hlisted⟩

theorem nodup_filesOf {depth : Nat} {name : Name}
    (hinside : (fs.audioFiles depth (location :: entered) (directory.child name)).Nodup)
    (node : Node κ) : (fs.filesOf depth entered directory location (name, node)).Nodup := by
  have hfile :
      (if (directory.child name).namesAudio then [directory.child name] else []).Nodup := by
    split
    · exact List.nodup_singleton _
    · exact List.nodup_nil
  cases node with
  | directory inner => exact hinside
  | file body modified => exact hfile
  | special => exact List.nodup_nil
  | link target =>
      simp only [filesOf]
      split
      · split
        · exact List.nodup_nil
        · exact hinside
      · exact hfile
      · exact List.nodup_nil

/-- The walk finds nothing twice. -/
theorem nodup_audioFiles (horderly : fs.Orderly) {depth : Nat}
    (hdepth : pathLimit < directory.bytes.length + depth) :
    (fs.audioFiles depth entered directory).Nodup := by
  induction depth generalizing entered directory with
  | zero => exact List.nodup_nil
  | succ depth ih =>
      cases henters : fs.enters? directory with
      | none =>
          rw [audioFiles_of_enters?_eq_none henters]
          exact List.nodup_nil
      | some location =>
          obtain ⟨entries, hfind⟩ := exists_find_of_enters? henters
          have hinside : ∀ name, PlainName name → ∀ path,
              path ∈ fs.audioFiles depth (location :: entered) (directory.child name) ↔
                ∃ rest, path = (directory.child name).below rest ∧
                  fs.Listed (location :: entered) (directory.child name) rest := by
            intro name hname
            have hlength := directory.length_child hname.nonempty
            exact mem_audioFiles_iff horderly (by omega)
          rw [audioFiles_succ hfind, List.nodup_flatMap]
          refine ⟨fun entry hentry => ?_, ?_⟩
          · have hname := horderly.plain_of_find hfind entry hentry
            have hlength := directory.length_child hname.nonempty
            exact nodup_filesOf (ih (by omega)) entry.2
          · refine (List.pairwise_map.mp (horderly.nodup_of_find hfind)).imp_of_mem ?_
            intro first second hfirst hsecond hne path hpath hagain
            rw [mem_filesOf_entry_iff horderly hfind hinside hfirst] at hpath
            rw [mem_filesOf_entry_iff horderly hfind hinside hsecond] at hagain
            obtain ⟨rest, rfl, hlisted⟩ := hpath
            obtain ⟨others, hsame, hother⟩ := hagain
            have hnames := Pathname.below_inj (bytes_ne_nil_of_find hfind) hlisted.plain
              hother.plain (List.cons_ne_nil _ _) (List.cons_ne_nil _ _) hsame
            exact hne (List.cons.inj hnames).1

/-- More depth than is enough for path names that can be followed makes no difference. -/
theorem audioFiles_congr_depth (horderly : fs.Orderly) {depth more : Nat}
    (hdepth : pathLimit < directory.bytes.length + depth)
    (hmore : pathLimit < directory.bytes.length + more) :
    fs.audioFiles depth entered directory = fs.audioFiles more entered directory := by
  induction depth generalizing entered directory more with
  | zero =>
      have hnone : fs.enters? directory = none := enters?_of_too_long hdepth
      rw [audioFiles_of_enters?_eq_none hnone, audioFiles_of_enters?_eq_none hnone]
  | succ depth ih =>
      cases henters : fs.enters? directory with
      | none => rw [audioFiles_of_enters?_eq_none henters, audioFiles_of_enters?_eq_none henters]
      | some location =>
          obtain ⟨entries, hfind⟩ := exists_find_of_enters? henters
          cases more with
          | zero =>
              rw [enters?_of_too_long hmore] at henters
              cases henters
          | succ more =>
              rw [audioFiles_succ hfind, audioFiles_succ hfind]
              refine List.flatMap_congr fun entry hentry => ?_
              have hname := horderly.plain_of_find hfind entry hentry
              have hlength := directory.length_child hname.nonempty
              have hinside : fs.audioFiles depth (location :: entered) (directory.child entry.1) =
                  fs.audioFiles more (location :: entered) (directory.child entry.1) :=
                ih (by omega) (by omega)
              rw [filesOf, filesOf, hinside]

end Walk

/-! ## What inputs are expanded to -/

theorem isDirectory_iff (fs : FileSystem κ) (path : Pathname) :
    fs.isDirectory path = true ↔ (fs.enters? path).isSome := by
  rw [isDirectory, open?, enters?]
  cases fs.find path true with
  | error error => simp [Except.map]
  | ok place =>
      obtain ⟨location, node⟩ := place
      cases node <;> simp [Except.map, Node.isDirectory, Node.entries?]

/-- What an input stands for: itself if it is not a directory, and else the audio files that
names lead to from it, each once. -/
structure Expands (fs : FileSystem κ) (input : Pathname) (files : List Pathname) : Prop where
  other : ¬ fs.isDirectory input → files = [input]
  directory : fs.isDirectory input → files.Nodup ∧ ∀ path,
    path ∈ files ↔ ∃ names, path = input.below names ∧ fs.Listed [] input names

theorem Orderly.expands (horderly : fs.Orderly) (input : Pathname) :
    fs.Expands input (fs.expandInput input) where
  other hother := by rw [expandInput, if_neg hother]
  directory hdirectory := by
    have hdepth : pathLimit < input.bytes.length + (pathLimit + 1) := by omega
    rw [expandInput, if_pos hdirectory]
    refine ⟨(List.mergeSort_perm _ _).nodup_iff.mpr (nodup_audioFiles horderly hdepth),
      fun path => ?_⟩
    rw [(List.mergeSort_perm _ _).mem_iff, mem_audioFiles_iff horderly hdepth]

/-- Inputs are expanded one after the other, each to what it stands for, whatever links there
are: the walk needs no more depth than a path name can have bytes. -/
theorem expand_complete (horderly : fs.Orderly) (inputs : List Pathname) :
    (∃ files, fs.expand inputs = files.flatten ∧ List.Forall₂ fs.Expands inputs files) ∧
      ∀ input depth, pathLimit < depth →
        fs.audioFiles depth [] input = fs.audioFiles (pathLimit + 1) [] input := by
  refine ⟨⟨inputs.map fs.expandInput, List.flatMap_def, ?_⟩, fun input depth hdepth => ?_⟩
  · rw [List.forall₂_map_right_iff, List.forall₂_same]
    exact fun input _ => horderly.expands input
  · exact audioFiles_congr_depth horderly (by omega) (by omega)

/-! ## A link to the root -/

/-- A file system is orderly if the root has no directories, and the names in it are in order. -/
theorem Orderly.of_flat (hflat : ∀ name inner, fs.root.child? name ≠ some (.directory inner))
    (hnodup : (fs.root.map (·.1)).Nodup) (hplain : ∀ entry ∈ fs.root, PlainName entry.1) :
    fs.Orderly := by
  have hroot : ∀ path entries, fs.root.descend? path = some (.directory entries) →
      entries = fs.root := by
    intro path entries hfound
    cases path with
    | nil =>
        cases hfound
        rfl
    | cons name rest =>
        cases rest with
        | nil => exact absurd hfound (hflat name entries)
        | cons next rest =>
            rw [Directory.descend?_cons fs.root name (List.cons_ne_nil _ _)] at hfound
            split at hfound
            · exact absurd ‹_› (hflat name _)
            · cases hfound
  refine ⟨fun path entries hfound => ?_, fun location entries hfound => ?_⟩
  · rw [hroot path entries hfound]
    exact hnodup
  · rw [hroot _ entries (directory?_eq_some_iff.mp hfound)]
    exact hplain

/-- A root with a file `a.wav` and a link `u` that leads back to it. -/
def looping : FileSystem Unit where
  root := [([97, 46, 119, 97, 118], .file (.data [] 0) 0), ([117], .link ⟨[47]⟩)]
  current := []

theorem orderly_looping : looping.Orderly := by
  refine .of_flat (fun name inner hchild => ?_) (by decide) (by decide)
  have hentry := mem_of_child? hchild
  simp [looping] at hentry

/-- The path name of the root. -/
def rootPath : Pathname :=
  ⟨[47]⟩

theorem find_rootPath (fs : FileSystem κ) :
    fs.find rootPath true = .ok ([], .directory fs.root) := by
  have hfollowable : Followable rootPath := ⟨by decide, by decide, by decide⟩
  have hsegments : rootPath.segments = [[], []] := rfl
  have hstart : fs.startOf rootPath = [] := rfl
  rw [find, locate_of_followable hfollowable, hsegments, hstart, walk_skip rfl, walk_skip rfl, walk]
  rfl

theorem find_loop :
    looping.find (rootPath.child [117]) true = .ok ([], .directory looping.root) := by
  have hfollowable : Followable (rootPath.child [117]) := ⟨by decide, by decide, by decide⟩
  have hsegments : (rootPath.child [117]).segments = [[], [117]] := rfl
  have hstart : looping.startOf (rootPath.child [117]) = [] := rfl
  have hroot : looping.directory? [] = some looping.root := rfl
  have hlimit : linkLimit = 39 + 1 := rfl
  have htarget : (⟨[47]⟩ : Pathname).segments ++ [] = [[], []] := rfl
  rw [find, locate_of_followable hfollowable, hsegments, hstart, hroot, walk_skip rfl, hlimit,
    walk_link (by decide) (by decide) (by decide) (by decide) rfl, ite_self, htarget,
    walk_skip rfl, walk_skip rfl, walk]
  rfl

/-- The file is found, but not a second time through the link. -/
theorem expand_complete_of_looping : looping.Orderly ∧
    rootPath.below [[97, 46, 119, 97, 118]] ∈ looping.expand [rootPath] ∧
    rootPath.below [[117], [97, 46, 119, 97, 118]] ∉ looping.expand [rootPath] := by
  have hfile : PlainName [97, 46, 119, 97, 118] := by decide
  have hlink : PlainName [117] := by decide
  have hfind := find_rootPath looping
  have henters := enters?_of_find hfind
  have hdirectory : looping.isDirectory rootPath = true := by
    rw [isDirectory_iff, henters]
    rfl
  obtain ⟨⟨found, hfound, hexpands⟩, -⟩ := expand_complete orderly_looping [rootPath]
  cases hexpands with
  | cons hinput hnil =>
      cases hnil
      obtain ⟨-, hlisted⟩ := hinput.directory hdirectory
      rw [hfound, List.flatten_singleton, hlisted, hlisted]
      refine ⟨orderly_looping,
        ⟨_, rfl, (listed_cons_iff henters hfile).mpr ⟨?_, .inl ⟨rfl, ?_⟩⟩⟩, ?_⟩
      · exact admits_of_not_link hfind hfile rfl nofun _
      · exact ⟨.inl ⟨_, _, _, find_child hfind hfile rfl (by decide) (.inr nofun)⟩, by decide⟩
      · rintro ⟨names, hsame, hnames⟩
        obtain rfl := Pathname.below_inj (by decide) (by simp [hfile, hlink]) hnames.plain
          (List.cons_ne_nil _ _) hnames.ne_nil hsame
        have hislink : looping.IsLink (rootPath.below ([] ++ [[117]])) :=
          ⟨_, _, find_child hfind hlink rfl (by decide) (.inl rfl)⟩
        obtain ⟨-, hearlier⟩ := hnames.links [] [117] (List.prefix_append [[117]] _) hislink []
          (enters?_of_find find_loop)
        exact hearlier [] List.nil_prefix henters

/-- A full stop and some slashes, which lead to the directory that relative path names start
from. -/
def dotPath (slashes : Nat) : Pathname :=
  ⟨46 :: List.replicate slashes 47⟩

theorem walk_skips {follow : Bool} {links : Nat} {start : Location} {here : Option (Directory κ)}
    {segments : List Name}
    (hskips : ∀ segment ∈ segments, segment = [] ∨ segment = [Pathname.dot]) :
    fs.walk follow links start here segments =
      .ok (.present start (.directory (here.getD [])) false) := by
  induction segments with
  | nil => rw [walk]
  | cons segment rest ih =>
      rw [List.forall_mem_cons] at hskips
      rw [walk_skip (by simpa using hskips.1), ih hskips.2]

theorem splitBytes_replicate_slash (count : Nat) :
    Pathname.splitBytes (List.replicate count Pathname.slash) = List.replicate (count + 1) [] := by
  induction count with
  | zero => rfl
  | succ count ih =>
      rw [List.replicate_succ, Pathname.splitBytes, if_pos rfl, ih]
      rfl

theorem find_dotPath {slashes : Nat} (hshort : slashes < pathLimit) :
    looping.find (dotPath slashes) true = .ok ([], .directory looping.root) := by
  have hfollowable : Followable (dotPath slashes) := by
    refine ⟨?_, List.cons_ne_nil _ _, ?_⟩
    · simp [dotPath]
    · rw [dotPath, List.length_cons, List.length_replicate]
      omega
  have hsegments : (dotPath slashes).segments = [46] :: List.replicate slashes [] := by
    show Pathname.splitBytes (46 :: List.replicate slashes Pathname.slash) = _
    rw [Pathname.splitBytes, splitBytes_replicate_slash, if_neg (by decide)]
    rfl
  have hstart : looping.startOf (dotPath slashes) = [] := rfl
  rw [find, locate_of_followable hfollowable, hsegments, hstart, walk_skips]
  · rfl
  · intro segment hsegment
    rcases List.mem_cons.mp hsegment with rfl | hsegment
    · exact .inr rfl
    · exact .inl (List.eq_of_mem_replicate hsegment)

theorem mem_expand_dotPath {slashes : Nat} (hshort : slashes < pathLimit)
    (hlong : pathLimit < slashes + 6) : looping.isDirectory (dotPath slashes) = true ∧
      (dotPath slashes).below [[97, 46, 119, 97, 118]] ∈ looping.expand [dotPath slashes] ∧
      pathLimit < ((dotPath slashes).below [[97, 46, 119, 97, 118]]).bytes.length ∧
      ¬ looping.LeadsToFile ((dotPath slashes).below [[97, 46, 119, 97, 118]]) := by
  have hfile : PlainName [97, 46, 119, 97, 118] := by decide
  have hfind := find_dotPath hshort
  have henters := enters?_of_find hfind
  have hdirectory : looping.isDirectory (dotPath slashes) = true := by
    rw [isDirectory_iff, henters]
    rfl
  have hbeyond : pathLimit < ((dotPath slashes).child [97, 46, 119, 97, 118]).bytes.length := by
    have hlength := Pathname.length_add_le_child (dotPath slashes) [97, 46, 119, 97, 118]
    simp only [dotPath, List.length_cons, List.length_replicate, List.length_nil] at hlength ⊢
    omega
  have haudio : ((dotPath slashes).child [97, 46, 119, 97, 118]).namesAudio = true := by
    rw [Pathname.namesAudio_child (bytes_ne_nil_of_find hfind) hfile]
    decide
  refine ⟨hdirectory, ?_, hbeyond, ?_⟩
  · rw [expand, List.flatMap_singleton,
      ((orderly_looping.expands (dotPath slashes)).directory hdirectory).2]
    refine ⟨_, rfl, (listed_cons_iff henters hfile).mpr ⟨?_, .inl ⟨rfl, .inr ⟨hbeyond, ?_⟩, ?_⟩⟩⟩
    · exact admits_of_not_link hfind hfile rfl nofun _
    · exact ⟨_, _, _, _, hfind, rfl⟩
    · exact haudio
  · rintro ⟨_, _, _, hfound⟩
    exact find_child_of_too_long hbeyond true _ hfound

/-- A file is listed although its path name is too long, and so does not lead to it. -/
theorem expand_too_long : looping.isDirectory (dotPath 4092) = true ∧
    (dotPath 4092).below [[97, 46, 119, 97, 118]] ∈ looping.expand [dotPath 4092] ∧
    pathLimit < ((dotPath 4092).below [[97, 46, 119, 97, 118]]).bytes.length ∧
    ¬ looping.LeadsToFile ((dotPath 4092).below [[97, 46, 119, 97, 118]]) :=
  mem_expand_dotPath (by decide) (by decide)

end AudioCatalog.FileSystem
