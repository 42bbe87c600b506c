import AudioCatalog.FileSystem.Expand
import AudioCatalog.Import.World
import AudioCatalog.Proofs.FileSystem.Removal

/-!
# Files of the root directory

A path name that is a slash and one plain name leads to the entry of the root directory with
this name, and no directory on the way has to be followed.
-/

namespace AudioCatalog

/-- Whether a name is that of an entry and nothing else. -/
structure PlainName (name : Name) : Prop where
  nonempty : name ≠ []
  not_dot : name ≠ [Pathname.dot]
  not_dots : name ≠ [Pathname.dot, Pathname.dot]
  slash_free : Pathname.slash ∉ name
  nul_free : 0 ∉ name
  short : name.length ≤ FileSystem.nameLimit

instance (name : Name) : Decidable (PlainName name) :=
  decidable_of_iff (name ≠ [] ∧ name ≠ [Pathname.dot] ∧ name ≠ [Pathname.dot, Pathname.dot] ∧
      Pathname.slash ∉ name ∧ 0 ∉ name ∧ name.length ≤ FileSystem.nameLimit)
    ⟨fun ⟨nonempty, not_dot, not_dots, slash_free, nul_free, short⟩ =>
        ⟨nonempty, not_dot, not_dots, slash_free, nul_free, short⟩,
      fun h => ⟨h.nonempty, h.not_dot, h.not_dots, h.slash_free, h.nul_free, h.short⟩⟩

/-- The path name of an entry of the root directory. -/
def Pathname.ofRoot (name : Name) : Pathname :=
  ⟨slash :: name⟩

variable {κ : Type} {fs : FileSystem κ} {name : Name}

theorem Pathname.splitBytes_of_not_mem {name : Name} (hslash : slash ∉ name) :
    splitBytes name = [name] := by
  induction name with
  | nil => rfl
  | cons byte rest ih =>
      rw [List.mem_cons, not_or] at hslash
      rw [splitBytes, if_neg (Ne.symm hslash.1), ih hslash.2]

namespace PlainName

theorem followable (hname : PlainName name) : FileSystem.Followable (.ofRoot name) where
  nul_free := by
    have hslash : (0 : UInt8) ≠ Pathname.slash := by decide
    simpa [Pathname.ofRoot, hslash] using hname.nul_free
  nonempty := List.cons_ne_nil _ _
  short := by
    have hshort := hname.short
    rw [Pathname.ofRoot, List.length_cons, FileSystem.pathLimit]
    rw [FileSystem.nameLimit] at hshort
    omega

/-- The name is looked up in the root directory. -/
theorem locate_eq (hname : PlainName name) (follow : Bool)
    (hleaf : ∀ node ∈ fs.root.child? name, ∃ body modified, node = .file body modified) :
    fs.locate (.ofRoot name) follow = .ok (match fs.root.child? name with
      | some node => .present [name] node false
      | none => .absent [] name false) := by
  have hsegments : (Pathname.ofRoot name).segments = [[], name] := by
    rw [Pathname.segments, Pathname.ofRoot, Pathname.splitBytes, if_pos rfl,
      Pathname.splitBytes_of_not_mem hname.slash_free]
  have hstart : fs.startOf (.ofRoot name) = [] := if_pos rfl
  have hroot : fs.directory? [] = some fs.root := rfl
  have hskip : ¬ (name = [] || name = [Pathname.dot]) = true := by
    simp [hname.nonempty, hname.not_dot]
  have hshort : ¬ name.length > FileSystem.nameLimit := Nat.not_lt.mpr hname.short
  rw [FileSystem.locate_of_followable hname.followable, hstart, hroot, hsegments, FileSystem.walk,
    if_pos (by decide), FileSystem.walk, if_neg hskip, if_neg hname.not_dots]
  cases hchild : fs.root.child? name with
  | none =>
      simp only [hchild, if_neg hshort]
      rfl
  | some node =>
      obtain ⟨body, modified, rfl⟩ := hleaf node hchild
      simp only [hchild, if_neg hshort]
      rfl

theorem find_file (hname : PlainName name) {body : Body κ} {modified : Int}
    (hchild : fs.root.child? name = some (.file body modified)) (follow : Bool) :
    fs.find (.ofRoot name) follow = .ok ([name], .file body modified) := by
  have hleaf : ∀ node ∈ fs.root.child? name, ∃ body modified, node = .file body modified := by
    intro node hnode
    rw [hchild] at hnode
    cases hnode
    exact ⟨body, modified, rfl⟩
  rw [FileSystem.find, hname.locate_eq follow hleaf, hchild]
  rfl

/-- A file of the root directory is admitted unless it is empty. -/
theorem admitted (hname : PlainName name) (htext : ¬ (Pathname.ofRoot name).text?.isNone)
    {world : World} {body : Body Catalog} {modified : Int}
    (hchild : world.files.root.child? name = some (.file body modified)) (hsize : body.size ≠ 0) :
    world.admit (.ofRoot name) = .ok (.ok ⟨body.size, modified⟩) := by
  unfold World.admit
  rw [if_neg htext, FileSystem.open?, hname.find_file hchild]
  exact congrArg Except.ok (if_neg hsize)

theorem rejected (hname : PlainName name) (htext : ¬ (Pathname.ofRoot name).text?.isNone)
    {world : World} {body : Body Catalog} {modified : Int}
    (hchild : world.files.root.child? name = some (.file body modified)) (hsize : body.size = 0) :
    world.admit (.ofRoot name) = .ok (.error .emptyFile) := by
  unfold World.admit
  rw [if_neg htext, FileSystem.open?, hname.find_file hchild]
  exact congrArg Except.ok (if_pos hsize)

/-- A file of the root directory stands for itself. -/
theorem expandInput_eq (hname : PlainName name) {body : Body κ} {modified : Int}
    (hchild : fs.root.child? name = some (.file body modified)) :
    fs.expandInput (.ofRoot name) = [.ofRoot name] := by
  have hleaf : fs.isDirectory (.ofRoot name) = false := by
    rw [FileSystem.isDirectory, FileSystem.open?, hname.find_file hchild]
    rfl
  rw [FileSystem.expandInput, hleaf]
  rfl

/-- A file of the root directory can be removed. -/
theorem removeImported_eq (hname : PlainName name) {body : Body κ} {modified : Int}
    (hchild : fs.root.child? name = some (.file body modified)) :
    fs.removeImported (.ofRoot name) = .ok (fs.erase [name]) := by
  have hfind := hname.find_file hchild false
  have htrimmed : (Pathname.ofRoot name).trimmed = .ofRoot name :=
    FileSystem.trimmed_of_find hfind rfl
  have hshort : ¬ (Pathname.ofRoot name).bytes.length > FileSystem.pathLimit :=
    hname.followable.short
  rw [FileSystem.removeImported, FileSystem.unlink, if_neg hshort, htrimmed, hfind]
  simp only [if_true]

end PlainName

end AudioCatalog
