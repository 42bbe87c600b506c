import AudioCatalog.Catalog.Table
import Mathlib.Data.List.Nodup

/-!
# Tables under their operations

What each operation does to the rows of a table and to the last number that was given out.
-/

namespace AudioCatalog.Table

variable {ρ : Type}

theorem ext {a b : Table ρ} (hrows : a.rows = b.rows) (hlast : a.lastId = b.lastId) : a = b := by
  cases a
  cases b
  cases hrows
  cases hlast
  rfl

/-- An insertion puts the row last, under a number that is greater than all before. -/
theorem insert?_eq_some {table next : Table ρ} {row : ρ} {id : Int}
    (h : table.insert? row = some (id, next)) :
    id = table.greatestId + 1 ∧ next.rows = table.rows ++ [(id, row)] ∧ next.lastId = id := by
  rw [insert?] at h
  split at h
  · cases h
  · rename_i hnext
    rw [nextId?] at hnext
    split at hnext
    · cases hnext
      cases h
      exact ⟨rfl, rfl, rfl⟩
    · cases hnext

theorem greatestId_of_insert? {table next : Table ρ} {row : ρ} {id : Int}
    (h : table.insert? row = some (id, next)) : next.greatestId = id := by
  obtain ⟨_, hrows, hlast⟩ := insert?_eq_some h
  rw [greatestId, hrows, List.getLast?_append, List.getLast?_singleton, Option.some_or, hlast]
  exact Int.max_self id

theorem greatestId_modify (table : Table ρ) (id : Int) (change : ρ → ρ) :
    (table.modify id change).greatestId = table.greatestId := by
  simp only [greatestId, modify, List.getLast?_map]
  cases table.rows.getLast? <;> rfl

theorem skip?_eq_some {table next : Table ρ} (h : table.skip? = some next) :
    next.rows = table.rows ∧ next.lastId = table.greatestId + 1 := by
  rw [skip?, Option.map_eq_some_iff] at h
  obtain ⟨id, hnext, rfl⟩ := h
  rw [nextId?] at hnext
  split at hnext
  · cases hnext
    exact ⟨rfl, rfl⟩
  · cases hnext

theorem greatestId_of_skip? {table next : Table ρ} (h : table.skip? = some next) :
    next.greatestId = table.greatestId + 1 := by
  obtain ⟨hrows, hlast⟩ := skip?_eq_some h
  have hbelow := table.le_greatestId
  generalize table.greatestId = greatest at hlast hbelow ⊢
  rw [greatestId, hrows, hlast]
  split
  · rename_i id row hentry
    have hid : id ≤ greatest := hbelow _ (List.mem_of_getLast? hentry)
    exact Int.max_eq_right (by omega)
  · rfl

/-- There is a number for the next row unless the greatest one is in use. -/
theorem isSome_nextId?_iff (table : Table ρ) :
    table.nextId?.isSome ↔ table.greatestId < idLimit := by
  rw [nextId?]
  split <;> simp_all

theorem isSome_insert?_iff (table : Table ρ) (row : ρ) :
    (table.insert? row).isSome ↔ table.greatestId < idLimit := by
  rw [← isSome_nextId?_iff, insert?]
  split <;> simp_all

theorem isSome_skip?_iff (table : Table ρ) :
    table.skip?.isSome ↔ table.greatestId < idLimit := by
  rw [← isSome_nextId?_iff, skip?, Option.isSome_map]

theorem nodup_ids (table : Table ρ) : (table.rows.map (·.1)).Nodup :=
  List.pairwise_map.mpr (table.ordered.imp fun h => Int.ne_of_lt h)

theorem row?_eq_some {table : Table ρ} {id : Int} {row : ρ} (h : table.row? id = some row) :
    (id, row) ∈ table.rows := by
  rw [row?, Option.map_eq_some_iff] at h
  obtain ⟨entry, hfind, rfl⟩ := h
  have hid : entry.1 = id := by simpa using List.find?_some hfind
  rw [← hid]
  exact List.mem_of_find?_eq_some hfind

/-- Rows are told apart by their numbers. -/
theorem eq_of_mem_of_mem (table : Table ρ) {a b : Int × ρ} (ha : a ∈ table.rows)
    (hb : b ∈ table.rows) (hid : a.1 = b.1) : a = b :=
  List.inj_on_of_nodup_map table.nodup_ids ha hb hid

theorem isSome_row?_iff {table : Table ρ} {id : Int} :
    (table.row? id).isSome ↔ ∃ entry ∈ table.rows, entry.1 = id := by
  simp [row?]

theorem row?_of_mem (table : Table ρ) {id : Int} {row : ρ} (h : (id, row) ∈ table.rows) :
    table.row? id = some row := by
  obtain ⟨other, hother⟩ := Option.isSome_iff_exists.mp (isSome_row?_iff.mpr ⟨_, h, rfl⟩)
  cases table.eq_of_mem_of_mem h (row?_eq_some hother) rfl
  exact hother

/-- Changes that agree on the row with the number change the table in the same way. -/
theorem modify_congr (table : Table ρ) {id : Int} {f g : ρ → ρ}
    (h : ∀ row, (id, row) ∈ table.rows → f row = g row) :
    table.modify id f = table.modify id g := by
  refine ext (List.map_congr_left fun entry hmem => ?_) rfl
  obtain ⟨number, row⟩ := entry
  by_cases hid : number = id
  · subst hid
    simp [h row hmem]
  · simp [hid]

theorem modify_id (table : Table ρ) {id : Int} {change : ρ → ρ}
    (h : ∀ row, (id, row) ∈ table.rows → change row = row) : table.modify id change = table := by
  rw [table.modify_congr h]
  exact ext (by simp [modify]) rfl

/-- The next number is the number of no row. -/
theorem not_mem_greatestId_add_one (table : Table ρ) (row : ρ) :
    (table.greatestId + 1, row) ∉ table.rows := by
  intro hmem
  have hle : table.greatestId + 1 ≤ table.greatestId := table.le_greatestId _ hmem
  omega

theorem modify_greatestId_add_one {table other : Table ρ} (hrows : other.rows = table.rows)
    (change : ρ → ρ) : other.modify (table.greatestId + 1) change = other := by
  refine other.modify_id fun row hmem => ?_
  rw [hrows] at hmem
  exact absurd hmem (table.not_mem_greatestId_add_one row)

/-- To insert a changed row is to change the row that was inserted. -/
theorem insert?_change (table : Table ρ) (row : ρ) (change : ρ → ρ) :
    table.insert? (change row) =
      (table.insert? row).map fun inserted =>
        (inserted.1, inserted.2.modify (table.greatestId + 1) change) := by
  cases hinserted : table.insert? row with
  | none =>
      have hfull : ¬ table.greatestId < idLimit := by
        rw [← table.isSome_insert?_iff row, hinserted]
        exact Bool.false_ne_true
      rw [← table.isSome_insert?_iff (change row), Option.not_isSome_iff_eq_none] at hfull
      exact hfull
  | some inserted =>
      obtain ⟨id, next⟩ := inserted
      obtain ⟨hid, hrows, hlast⟩ := insert?_eq_some hinserted
      have hroom : table.greatestId < idLimit := by
        rw [← table.isSome_insert?_iff row, hinserted]
        rfl
      obtain ⟨⟨number, changed⟩, hchanged⟩ :=
        Option.isSome_iff_exists.mp ((table.isSome_insert?_iff (change row)).mpr hroom)
      obtain ⟨hnumber, hrows', hlast'⟩ := insert?_eq_some hchanged
      obtain rfl : number = id := hnumber.trans hid.symm
      have hkept := congrArg rows (table.modify_greatestId_add_one rfl change)
      have hsame : changed = next.modify (table.greatestId + 1) change := by
        refine ext ?_ (hlast'.trans hlast.symm)
        simp only [modify] at hkept ⊢
        rw [hrows, hrows', List.map_append, hkept, List.map_singleton, if_pos hid]
      rw [hchanged, hsame]
      rfl

end AudioCatalog.Table
