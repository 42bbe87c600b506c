import AudioCatalog.Proofs.FileSystem.Children

/-!
# Audio files below a directory

Names lead from a directory to an audio file if each path name on the way is that of a directory,
no link on the way leads back to a directory that was entered before it, and the last name is
that of an audio file.  This is said of all the names at once, without a walk; `listed_cons_iff`
takes the first of them off.
-/

namespace AudioCatalog.FileSystem

variable {κ : Type} {fs : FileSystem κ}

/-- Whether the names in every directory are distinct, and such as entries can have. -/
structure Orderly (fs : FileSystem κ) : Prop where
  distinct : fs.root.Distinct
  plain : ∀ location entries, fs.directory? location = some entries →
    ∀ entry ∈ entries, PlainName entry.1

/-- The location of the directory that a path name leads to, if it leads to one. -/
def enters? (fs : FileSystem κ) (path : Pathname) : Option Location :=
  match fs.find path true with
  | .ok (location, .directory _) => some location
  | _ => none

/-- Whether a path name is that of a link. -/
def IsLink (fs : FileSystem κ) (path : Pathname) : Prop :=
  ∃ location target, fs.find path false = .ok (location, .link target)

/-- Whether a path name leads to a regular file. -/
def LeadsToFile (fs : FileSystem κ) (path : Pathname) : Prop :=
  ∃ location body modified, fs.find path true = .ok (location, .file body modified)

/-- Whether a directory has a regular file with a name, but the path name of this file is too
long to be followed. -/
def HoldsBeyond (fs : FileSystem κ) (directory : Pathname) (name : Name) : Prop :=
  pathLimit < (directory.child name).bytes.length ∧
    ∃ location, ∃ entries : Directory κ, ∃ body modified,
      fs.find directory true = .ok (location, .directory entries) ∧
        entries.child? name = some (.file body modified)

/-- Whether names lead from a directory to an audio file, for a walk that is inside of some
directories already. -/
structure Listed (fs : FileSystem κ) (entered : List Location) (directory : Pathname)
    (names : List Name) : Prop where
  plain : ∀ name ∈ names, PlainName name
  directories : ∀ front, front <+: names → front ≠ names →
    (fs.enters? (directory.below front)).isSome
  links : ∀ front name, front ++ [name] <+: names →
    fs.IsLink (directory.below (front ++ [name])) →
      ∀ location, fs.enters? (directory.below (front ++ [name])) = some location →
        location ∉ entered ∧
          ∀ earlier, earlier <+: front → fs.enters? (directory.below earlier) ≠ some location
  file : ∃ name, names.getLast? = some name ∧
    (fs.LeadsToFile (directory.below names) ∨
      fs.HoldsBeyond (directory.below names.dropLast) name)
  audio : (directory.below names).namesAudio

section OneName

variable {entered : List Location} {directory : Pathname} {name : Name} {rest : List Name}

/-- Whether a walk inside of some directories may go on at a path name. -/
def Admits (fs : FileSystem κ) (entered : List Location) (path : Pathname) : Prop :=
  fs.IsLink path → ∀ location, fs.enters? path = some location → location ∉ entered

/-- Whether a name is that of an audio file in a directory. -/
def EndsAt (fs : FileSystem κ) (directory : Pathname) (name : Name) : Prop :=
  (fs.LeadsToFile (directory.child name) ∨ fs.HoldsBeyond directory name) ∧
    (directory.child name).namesAudio

theorem Listed.ne_nil {names : List Name} (hlisted : fs.Listed entered directory names) :
    names ≠ [] := by
  obtain ⟨name, hlast, -⟩ := hlisted.file
  rintro rfl
  cases hlast

theorem Listed.isSome_enters? {names : List Name} (hlisted : fs.Listed entered directory names) :
    (fs.enters? directory).isSome :=
  hlisted.directories [] List.nil_prefix hlisted.ne_nil.symm

theorem concat_prefix_cons {front : List Name} {last : Name}
    (hbegins : front ++ [last] <+: name :: rest) :
    front = [] ∧ last = name ∨ ∃ tail, front = name :: tail ∧ tail ++ [last] <+: rest := by
  cases front with
  | nil => exact .inl ⟨rfl, (List.cons_prefix_cons.mp hbegins).1⟩
  | cons first tail =>
      obtain ⟨rfl, htail⟩ := List.cons_prefix_cons.mp hbegins
      exact .inr ⟨tail, rfl, htail⟩

theorem admitted_first {location target : Location}
    (henters : fs.enters? directory = some location) (htarget : target ∉ location :: entered) :
    target ∉ entered ∧ ∀ earlier, earlier <+: ([] : List Name) →
      fs.enters? (directory.below earlier) ≠ some target := by
  rw [List.mem_cons, not_or] at htarget
  refine ⟨htarget.2, fun earlier hbegins heq => ?_⟩
  rw [List.prefix_nil.mp hbegins] at heq
  exact htarget.1 (Option.some.inj (heq.symm.trans henters))

/-- The first name leads to where a walk may go on. -/
theorem Listed.admits {location : Location} (henters : fs.enters? directory = some location)
    (hlisted : fs.Listed entered directory (name :: rest)) :
    fs.Admits (location :: entered) (directory.child name) := by
  intro hlink target htarget
  obtain ⟨hentered, hearlier⟩ :=
    hlisted.links [] name (List.prefix_append [name] rest) hlink target htarget
  have hhere := hearlier [] List.nil_prefix
  rw [List.mem_cons, not_or]
  exact ⟨fun heq => hhere (heq ▸ henters), hentered⟩

/-- The other names lead on from there, if there are any. -/
theorem Listed.of_cons {location : Location} (henters : fs.enters? directory = some location)
    (hlisted : fs.Listed entered directory (name :: rest)) (hrest : rest ≠ []) :
    fs.Listed (location :: entered) (directory.child name) rest where
  plain other hother := hlisted.plain other (List.mem_cons_of_mem _ hother)
  directories front hfront hne :=
    hlisted.directories (name :: front) (List.cons_prefix_cons.mpr ⟨rfl, hfront⟩)
      fun heq => hne (List.cons.inj heq).2
  links front other hfront hlink target htarget := by
    obtain ⟨hentered, hearlier⟩ := hlisted.links (name :: front) other
      (List.cons_prefix_cons.mpr ⟨rfl, hfront⟩) hlink target htarget
    have hhere := hearlier [] List.nil_prefix
    rw [List.mem_cons, not_or]
    exact ⟨⟨fun heq => hhere (heq ▸ henters), hentered⟩, fun earlier hbegins =>
      hearlier (name :: earlier) (List.cons_prefix_cons.mpr ⟨rfl, hbegins⟩)⟩
  file := by
    obtain ⟨next, others, rfl⟩ := List.exists_cons_of_ne_nil hrest
    exact hlisted.file
  audio := hlisted.audio

theorem Listed.singleton {location : Location} (henters : fs.enters? directory = some location)
    (hname : PlainName name) (hadmits : fs.Admits (location :: entered) (directory.child name))
    (hends : fs.EndsAt directory name) : fs.Listed entered directory [name] where
  plain other hother := by rwa [List.mem_singleton.mp hother]
  directories front hfront hne := by
    rcases List.prefix_cons_iff.mp hfront with rfl | ⟨tail, rfl, htail⟩
    · exact Option.isSome_of_eq_some henters
    · rw [List.prefix_nil.mp htail] at hne
      exact absurd rfl hne
  links front other hfront hlink target htarget := by
    rcases concat_prefix_cons hfront with ⟨rfl, rfl⟩ | ⟨tail, -, htail⟩
    · exact admitted_first henters (hadmits hlink target htarget)
    · simp at htail
  file := ⟨name, rfl, hends.1⟩
  audio := hends.2

/-- Names that lead on from an entry of a directory, with the name of the entry before them. -/
theorem Listed.cons {location : Location} (henters : fs.enters? directory = some location)
    (hname : PlainName name) (hadmits : fs.Admits (location :: entered) (directory.child name))
    (hlisted : fs.Listed (location :: entered) (directory.child name) rest) :
    fs.Listed entered directory (name :: rest) where
  plain := List.forall_mem_cons.mpr ⟨hname, hlisted.plain⟩
  directories front hfront hne := by
    rcases List.prefix_cons_iff.mp hfront with rfl | ⟨tail, rfl, htail⟩
    · exact Option.isSome_of_eq_some henters
    · exact hlisted.directories tail htail fun heq => hne (heq ▸ rfl)
  links front other hfront hlink target htarget := by
    rcases concat_prefix_cons hfront with ⟨rfl, rfl⟩ | ⟨tail, rfl, htail⟩
    · exact admitted_first henters (hadmits hlink target htarget)
    · obtain ⟨hentered, hearlier⟩ := hlisted.links tail other htail hlink target htarget
      rw [List.mem_cons, not_or] at hentered
      refine ⟨hentered.2, fun earlier hbegins => ?_⟩
      rcases List.prefix_cons_iff.mp hbegins with rfl | ⟨before, rfl, hbefore⟩
      · exact fun heq => hentered.1 (Option.some.inj (heq.symm.trans henters))
      · exact hearlier before hbefore
  file := by
    obtain ⟨next, others, rfl⟩ := List.exists_cons_of_ne_nil hlisted.ne_nil
    exact hlisted.file
  audio := hlisted.audio

/-- Names lead to an audio file if the first one is that of an audio file, or the others lead
to one from there. -/
theorem listed_cons_iff {location : Location} (henters : fs.enters? directory = some location)
    (hname : PlainName name) : fs.Listed entered directory (name :: rest) ↔
      fs.Admits (location :: entered) (directory.child name) ∧
        (rest = [] ∧ fs.EndsAt directory name ∨
          fs.Listed (location :: entered) (directory.child name) rest) := by
  constructor
  · intro hlisted
    refine ⟨hlisted.admits henters, ?_⟩
    by_cases hrest : rest = []
    · subst hrest
      obtain ⟨last, hlast, hfile⟩ := hlisted.file
      cases hlast
      exact .inl ⟨rfl, hfile, hlisted.audio⟩
    · exact .inr (hlisted.of_cons henters hrest)
  · rintro ⟨hadmits, ⟨rfl, hends⟩ | hlisted⟩
    · exact .singleton henters hname hadmits hends
    · exact .cons henters hname hadmits hlisted

end OneName

end AudioCatalog.FileSystem
