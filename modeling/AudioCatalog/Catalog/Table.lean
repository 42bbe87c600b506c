/-!
# Tables

Rows are numbered in the order of their insertion, and a number is never given out
twice: the table remembers the last one, also when its row is gone.  A row may be given
another number; new rows then come after the greatest number there is.
-/

namespace AudioCatalog

/-- Numbered rows, the lowest number first. -/
structure Table (ρ : Type) where
  rows : List (Int × ρ)
  lastId : Int
  ordered : rows.Pairwise fun a b => a.1 < b.1

namespace Table

variable {ρ : Type}

/-- A table that never held a row. -/
def empty : Table ρ :=
  ⟨[], 0, .nil⟩

/-- The greatest number that is in use or was given out. -/
def greatestId (table : Table ρ) : Int :=
  match table.rows.getLast? with
  | some (id, _) => max id table.lastId
  | none => table.lastId

/-- No row has a greater number than `greatestId`. -/
theorem le_greatestId (table : Table ρ) :
    ∀ entry ∈ table.rows, entry.1 ≤ table.greatestId := by
  intro entry entry_mem
  rcases List.eq_nil_or_concat table.rows with none | ⟨front, last, split⟩
  · simp [none] at entry_mem
  · rw [List.concat_eq_append] at split
    have ordered := table.ordered
    rw [split, List.pairwise_append] at ordered
    simp only [greatestId, split, List.getLast?_append, List.getLast?_singleton,
      Option.some_or]
    rw [split, List.mem_append, List.mem_singleton] at entry_mem
    rcases entry_mem with in_front | rfl
    · have := ordered.2.2 entry in_front last (List.mem_singleton.2 rfl)
      omega
    · exact Int.le_max_left ..

/-- The greatest number that a row can have. -/
def idLimit : Int := 9223372036854775807

/-- The number that the next row gets.  There is none left after the greatest. -/
def nextId? (table : Table ρ) : Option Int :=
  if table.greatestId < idLimit then some (table.greatestId + 1) else none

theorem lt_of_nextId? {table : Table ρ} {id : Int} (next : table.nextId? = some id) :
    ∀ entry ∈ table.rows, entry.1 < id := by
  intro entry entry_mem
  have := table.le_greatestId entry entry_mem
  simp only [nextId?] at next
  split at next
  · cases next
    omega
  · cases next

/-- Adds a row under the next number, and gives the number. -/
def insert? (table : Table ρ) (row : ρ) : Option (Int × Table ρ) :=
  match next : table.nextId? with
  | none => none
  | some id => some (id, {
      rows := table.rows ++ [(id, row)]
      lastId := id
      ordered := List.pairwise_append.2 ⟨table.ordered, List.pairwise_singleton .., by
        intro entry entry_mem new new_mem
        rw [List.mem_singleton.1 new_mem]
        exact lt_of_nextId? next entry entry_mem⟩ })

/-- Uses up a number without adding a row. -/
def skip? (table : Table ρ) : Option (Table ρ) :=
  table.nextId?.map fun id => { table with lastId := id }

/-- The row with a number. -/
def row? (table : Table ρ) (id : Int) : Option ρ :=
  (table.rows.find? fun entry => entry.1 = id).map (·.2)

/-- Changes the row with a number. -/
def modify (table : Table ρ) (id : Int) (change : ρ → ρ) : Table ρ where
  rows := table.rows.map fun entry =>
    (entry.1, if entry.1 = id then change entry.2 else entry.2)
  lastId := table.lastId
  ordered := List.pairwise_map.2 table.ordered

/-- Removes the row with a number. -/
def erase (table : Table ρ) (id : Int) : Table ρ where
  rows := table.rows.filter fun entry => entry.1 ≠ id
  lastId := table.lastId
  ordered := table.ordered.filter _

/-- Puts a row under a number, over the one that has it. -/
def put (table : Table ρ) (id : Int) (row : ρ) : Table ρ where
  rows := table.rows.filter (·.1 < id) ++ (id, row) :: table.rows.filter (id < ·.1)
  lastId := table.lastId
  ordered := by
    refine List.pairwise_append.2 ⟨table.ordered.filter _,
      List.pairwise_cons.2 ⟨fun entry entry_mem => ?_, table.ordered.filter _⟩,
      fun before before_mem entry entry_mem => ?_⟩
    · simpa using (List.mem_filter.1 entry_mem).2
    · have before_lt : before.1 < id := by simpa using (List.mem_filter.1 before_mem).2
      rcases List.mem_cons.1 entry_mem with rfl | entry_mem
      · exact before_lt
      · have : id < entry.1 := by simpa using (List.mem_filter.1 entry_mem).2
        omega

/-- Gives the row with a number another number, which no row may have. -/
def renumber? (table : Table ρ) (id newId : Int) : Option (Table ρ) :=
  if id ≠ newId ∧ (table.row? newId).isSome then none
  else (table.row? id).map fun row => (table.erase id).put newId row

/-- Whether the numbers of some rows increase. -/
def increasing : List (Int × ρ) → Bool
  | first :: second :: rest => first.1 < second.1 && increasing (second :: rest)
  | [_] | [] => true

theorem pairwise_of_increasing {rows : List (Int × ρ)} (holds : increasing rows = true) :
    rows.Pairwise fun a b => a.1 < b.1 := by
  fun_induction increasing rows with
  | case1 first second rest ih =>
    rw [Bool.and_eq_true, decide_eq_true_iff] at holds
    have ordered := ih holds.2
    refine List.pairwise_cons.2 ⟨fun entry entry_mem => ?_, ordered⟩
    rcases List.mem_cons.1 entry_mem with rfl | entry_mem
    · exact holds.1
    · have := (List.pairwise_cons.1 ordered).1 entry entry_mem
      omega
  | case2 only => exact List.pairwise_singleton ..
  | case3 => exact .nil

/-- The table with some rows, if they are in order. -/
def ofRows? (rows : List (Int × ρ)) (lastId : Int) : Option (Table ρ) :=
  if holds : increasing rows = true then some ⟨rows, lastId, pairwise_of_increasing holds⟩
  else none

end Table

end AudioCatalog
