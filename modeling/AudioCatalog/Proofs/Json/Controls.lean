import AudioCatalog.Proofs.Json.RoundTrip

/-!
# Control characters in JSON

The compact text of a plain value has none, whatever its literals and names hold: an escaped
character is written with a backslash and visible ones, and nothing else of the text comes from
outside.  So it can be kept where a control character, or a NUL, would end a text.
-/

namespace AudioCatalog

/-- Whether none of the characters is one of the 32 control characters in front of the blank. -/
def NoControls (cs : List Char) : Prop :=
  ∀ c ∈ cs, 32 ≤ c.toNat

@[simp]
theorem noControls_nil : NoControls [] :=
  List.forall_mem_nil _

@[simp]
theorem noControls_cons {c : Char} {cs : List Char} :
    NoControls (c :: cs) ↔ 32 ≤ c.toNat ∧ NoControls cs :=
  List.forall_mem_cons

@[simp]
theorem noControls_append {cs ds : List Char} :
    NoControls (cs ++ ds) ↔ NoControls cs ∧ NoControls ds :=
  List.forall_mem_append

theorem Hex.le_toNat_digit {n : Nat} (h : n < 16) : 32 ≤ (Hex.digit n).toNat := by
  have hall : ∀ k < 16, 32 ≤ (Hex.digit k).toNat := by decide
  exact hall n h

namespace JsonLiteral

theorem noControls_twoDigits {n : Nat} (h : n < 32) : NoControls (twoDigits n) := by
  have hhigh := Hex.le_toNat_digit (n := n / 16) (by omega)
  have hlow := Hex.le_toNat_digit (n := n % 16) (by omega)
  simpa [twoDigits] using ⟨hhigh, hlow⟩

/-- How a character is written has no control characters, also where it is one itself. -/
theorem noControls_escape (c : Char) : NoControls (escape c) := by
  unfold escape
  split_ifs with _ _ _ _ _ _ _ hcontrol
  -- First the escapes by letter, then the one by number.
  iterate 7
    · simp
  · simpa using noControls_twoDigits hcontrol
  · simpa using hcontrol

theorem noControls_write (text : List Char) : NoControls (write text) := by
  have hinside : NoControls (text.flatMap escape) := by
    intro c hmem
    obtain ⟨written, _, hmem⟩ := List.mem_flatMap.mp hmem
    exact noControls_escape written c hmem
  simpa [write] using hinside

end JsonLiteral

namespace Json

theorem noControls_literalChars (value : Option String) : NoControls (literalChars value) :=
  JsonLiteral.noControls_write _

theorem noControls_joined {pieces : List (List Char)}
    (heach : ∀ piece ∈ pieces, NoControls piece) : NoControls (joined [','] pieces) := by
  induction pieces with
  | nil => exact noControls_nil
  | cons piece pieces ih =>
      rw [List.forall_mem_cons] at heach
      cases pieces with
      | nil => exact heach.1
      | cons next pieces =>
          have hrest := ih heach.2
          simp only [joined, noControls_append]
          exact ⟨⟨heach.1, by simp⟩, hrest⟩

theorem noControls_toDigits (n : Nat) : NoControls (Nat.toDigits 10 n) := by
  intro c hmem
  have hdigit := isDigit_of_mem_toDigits hmem
  simp only [Char.isDigit, Bool.and_eq_true, decide_eq_true_eq, ge_iff_le,
    UInt32.le_iff_toNat_le] at hdigit
  exact Nat.le_trans (by decide) hdigit.1

/-- The compact form of a plain value has no control characters. -/
theorem Plain.noControls {value : Json} (hplain : value.Plain) :
    NoControls value.compactChars := by
  induction hplain with
  | null => simp [compactChars]
  | bool value => cases value <;> simp [compactChars]
  | number n =>
      rw [ofNat, compactChars, Nat.toString_eq_repr, Nat.toList_repr]
      exact noControls_toDigits n
  | text value => exact noControls_literalChars (some value)
  | array each ih =>
      rw [compactChars, compactItems_eq_map]
      have hitems := noControls_joined (List.forall_mem_map.mpr ih)
      simpa using hitems
  | @object members each ih =>
      rw [ofMembers, compactChars, compactMembers_eq_map]
      have hmembers : ∀ member ∈ members, NoControls (memberChars (some member.1, member.2)) := by
        intro member hmem
        rw [memberChars, noControls_append, noControls_cons]
        exact ⟨noControls_literalChars _, by decide, ih member hmem⟩
      have hjoined := noControls_joined (List.forall_mem_map.mpr hmembers)
      rw [List.map_map]
      simpa [Function.comp_def] using hjoined

end Json

end AudioCatalog
