/-!
# Tags

Tags are a finite map from names to values, kept as a list in the order of the
names.  The order belongs to the type, so two maps with the same entries are equal.
-/

namespace AudioCatalog

/-- A map from names to values, sorted by name. -/
structure TagMap where
  entries : List (String × String)
  sorted : entries.Pairwise fun a b => a.1 < b.1
  deriving DecidableEq

namespace TagMap

/-- No tags. -/
def empty : TagMap :=
  ⟨[], .nil⟩

/-- Puts an entry in its place, over an entry of the same name. -/
def insertEntry (name value : String) : List (String × String) → List (String × String)
  | [] => [(name, value)]
  | (other, kept) :: rest =>
    if name < other then (name, value) :: (other, kept) :: rest
    else if name = other then (name, value) :: rest
    else (other, kept) :: insertEntry name value rest

theorem fst_of_mem_insertEntry {name value : String} {entries : List (String × String)}
    {entry : String × String} (h : entry ∈ insertEntry name value entries) :
    entry.1 = name ∨ entry ∈ entries := by
  induction entries with
  | nil => simp_all [insertEntry]
  | cons first rest ih =>
    simp only [insertEntry] at h
    split at h
    · rcases List.mem_cons.mp h with rfl | h
      · exact .inl rfl
      · exact .inr h
    · split at h
      · rcases List.mem_cons.mp h with rfl | h
        · exact .inl rfl
        · exact .inr (List.mem_cons_of_mem _ h)
      · rcases List.mem_cons.mp h with rfl | h
        · exact .inr List.mem_cons_self
        · exact (ih h).imp id (List.mem_cons_of_mem _)

theorem pairwise_insertEntry (name value : String) {entries : List (String × String)}
    (sorted : entries.Pairwise fun a b => a.1 < b.1) :
    (insertEntry name value entries).Pairwise fun a b => a.1 < b.1 := by
  induction entries with
  | nil => simp [insertEntry]
  | cons first rest ih =>
    have ⟨below, tail⟩ := List.pairwise_cons.mp sorted
    simp only [insertEntry]
    split
    · rename_i lower
      refine List.pairwise_cons.mpr ⟨fun entry h => ?_, sorted⟩
      rcases List.mem_cons.mp h with rfl | h
      · exact lower
      · exact String.lt_trans lower (below entry h)
    · split
      · rename_i same
        exact List.pairwise_cons.mpr ⟨fun entry h => same ▸ below entry h, tail⟩
      · rename_i notLower notSame
        refine List.pairwise_cons.mpr ⟨fun entry h => ?_, ih tail⟩
        rcases fst_of_mem_insertEntry h with named | h
        · rw [named]
          refine Decidable.byContradiction fun notHigher => notSame ?_
          exact String.le_antisymm (String.not_lt.mp notHigher) (String.not_lt.mp notLower)
        · exact below entry h

/-- The map with one more entry; a later value replaces an earlier one. -/
def insert (tags : TagMap) (name value : String) : TagMap :=
  ⟨insertEntry name value tags.entries, pairwise_insertEntry name value tags.sorted⟩

/-- The map of a list of entries, of which the last one of a name counts. -/
def ofList (entries : List (String × String)) : TagMap :=
  entries.foldl (fun tags entry => tags.insert entry.1 entry.2) empty

/-- Whether there are no tags. -/
def isEmpty (tags : TagMap) : Bool :=
  tags.entries.isEmpty

end TagMap

end AudioCatalog
