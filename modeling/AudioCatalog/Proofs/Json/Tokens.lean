import AudioCatalog.Json.Reader
import AudioCatalog.Json.Writer
import Mathlib.Tactic.SplitIfs

/-!
# Tokens of JSON read back

A literal and a natural number are read back as they were written, whatever follows the
literal, and unless what follows would continue the number.
-/

namespace AudioCatalog

/-! ## Hexadecimal digits -/

theorem Hex.value?_digit {n : Nat} (h : n < 16) : Hex.value? (Hex.digit n) = some n := by
  have hall : ∀ k < 16, Hex.value? (Hex.digit k) = some k := by decide
  exact hall n h

namespace JsonLiteral

/-! ## Literals -/

theorem unit?_control {n : Nat} (h : n < 32) (rest : List Char) :
    unit? ('0' :: '0' :: (twoDigits n ++ rest)) = some (n, rest) := by
  have hhigh := Hex.value?_digit (n := n / 16) (by omega)
  have hlow := Hex.value?_digit (n := n % 16) (by omega)
  have hzero : Hex.value? '0' = some 0 := by decide
  simp only [twoDigits, List.cons_append, List.nil_append, unit?, hhigh, hlow, hzero,
    Option.bind_eq_bind, Option.bind_some]
  rw [show ((0 * 16 + 0) * 16 + n / 16) * 16 + n % 16 = n by omega]
  rfl

theorem pieces?_named {letter named : Char} (hnamed : named? letter = some named)
    (hletter : letter ≠ 'u') (fuel : Nat) (rest : List Char) :
    pieces? (fuel + 1) ('\\' :: letter :: rest) =
      (pieces? fuel rest).map fun read => (.char named :: read.1, read.2) := by
  rw [pieces?, hnamed]
  · cases pieces? fuel rest <;> rfl
  · simpa using hletter

theorem pieces?_control {c : Char} (h : c.toNat < 32) (fuel : Nat) (rest : List Char) :
    pieces? (fuel + 1) ('\\' :: 'u' :: '0' :: '0' :: (twoDigits c.toNat ++ rest)) =
      (pieces? fuel rest).map fun read => (.unit c.toNat :: read.1, read.2) := by
  rw [pieces?, unit?_control h]
  simp only [Option.bind_eq_bind, Option.bind_some]
  cases pieces? fuel rest <;> rfl

theorem pieces?_plain {c : Char} (hquote : c ≠ '"') (hslash : c ≠ '\\') (h : ¬ c.toNat < 32)
    (fuel : Nat) (rest : List Char) :
    pieces? (fuel + 1) (c :: rest) =
      (pieces? fuel rest).map fun read => (.char c :: read.1, read.2) := by
  rw [pieces?]
  · rw [if_neg (by simp [hslash, h])]
    cases pieces? fuel rest <;> rfl
  all_goals simp_all

/-- A written character is read back as one piece, which stands for it.  Control characters
without a letter of their own are written by number. -/
theorem pieces?_escape (c : Char) : ∃ piece,
    (∀ pieces, textOf? (piece :: pieces) = (textOf? pieces).map (c :: ·)) ∧
      ∀ fuel rest, pieces? (fuel + 1) (escape c ++ rest) =
        (pieces? fuel rest).map fun read => (piece :: read.1, read.2) := by
  unfold escape
  split_ifs with h1 h2 h3 h4 h5 h6 h7 hcontrol
  · exact ⟨.char c, fun _ => rfl, pieces?_named (by rw [h1]; rfl) (by decide)⟩
  · exact ⟨.char c, fun _ => rfl, pieces?_named (by rw [h2]; rfl) (by decide)⟩
  · exact ⟨.char c, fun _ => rfl, pieces?_named (by rw [h3]; rfl) (by decide)⟩
  · exact ⟨.char c, fun _ => rfl, pieces?_named (by rw [h4]; rfl) (by decide)⟩
  · exact ⟨.char c, fun _ => rfl, pieces?_named (by rw [h5]; rfl) (by decide)⟩
  · exact ⟨.char c, fun _ => rfl, pieces?_named (by rw [h6]; rfl) (by decide)⟩
  · exact ⟨.char c, fun _ => rfl, pieces?_named (by rw [h7]; rfl) (by decide)⟩
  · refine ⟨.unit c.toNat, fun pieces => ?_, pieces?_control hcontrol⟩
    have hlow : ¬(0xDC00 ≤ c.toNat ∧ c.toNat ≤ 0xDFFF) := by omega
    have hhigh : ¬(0xD800 ≤ c.toNat ∧ c.toNat ≤ 0xDBFF) := by omega
    rw [textOf?.eq_def]
    simp only [hlow, hhigh, if_false, Char.ofNat_toNat]
  · exact ⟨.char c, fun _ => rfl, pieces?_plain h1 h2 hcontrol⟩

/-- The characters between the quotes of a written literal. -/
theorem pieces?_flatMap_escape (text : List Char) : ∃ pieces, textOf? pieces = some text ∧
    ∀ fuel rest, text.length < fuel →
      pieces? fuel (text.flatMap escape ++ '"' :: rest) = some (pieces, rest) := by
  induction text with
  | nil =>
      refine ⟨[], rfl, fun fuel rest hfuel => ?_⟩
      obtain ⟨fuel, rfl⟩ := Nat.exists_eq_succ_of_ne_zero (Nat.ne_of_gt hfuel)
      rfl
  | cons c text ih =>
      obtain ⟨pieces, htext, hread⟩ := ih
      obtain ⟨piece, hstands, hpiece⟩ := pieces?_escape c
      refine ⟨piece :: pieces, by rw [hstands, htext]; rfl, fun fuel rest hfuel => ?_⟩
      obtain ⟨fuel, rfl⟩ := Nat.exists_eq_succ_of_ne_zero (Nat.ne_of_gt (Nat.zero_lt_of_lt hfuel))
      rw [List.flatMap_cons, List.append_assoc, hpiece, hread fuel rest (by simpa using hfuel)]
      rfl

theorem one_le_length_escape (c : Char) : 1 ≤ (escape c).length := by
  unfold escape
  split_ifs <;> simp

theorem length_le_length_flatMap_escape (text : List Char) :
    text.length ≤ (text.flatMap escape).length := by
  induction text with
  | nil => simp
  | cons c text ih =>
      have := one_le_length_escape c
      simp only [List.flatMap_cons, List.length_append, List.length_cons]
      omega

end JsonLiteral

namespace Json

/-- A written literal is read back, once its opening quote has been. -/
theorem literal?_write (text : String) (rest : List Char) :
    literal? (text.toList.flatMap JsonLiteral.escape ++ '"' :: rest) = some (some text, rest) := by
  obtain ⟨pieces, htext, hread⟩ := JsonLiteral.pieces?_flatMap_escape text.toList
  have hlength := JsonLiteral.length_le_length_flatMap_escape text.toList
  rw [literal?, hread _ rest (by simp only [List.length_append, List.length_cons]; omega)]
  simp [htext]

/-! ## Natural numbers -/

/-- Whether a number ends where these characters follow it. -/
def EndsNumber (rest : List Char) : Prop :=
  ∀ c ∈ rest.head?, c.isDigit = false ∧ c ≠ '.' ∧ c ≠ 'e' ∧ c ≠ 'E'

theorem isDigit_of_mem_toDigits {n : Nat} {c : Char} (h : c ∈ Nat.toDigits 10 n) :
    c.isDigit = true :=
  Nat.isDigit_of_mem_toDigits (by omega) (by omega) h

/-- Only zero is written with a leading zero. -/
theorem toDigits_eq_cons {n : Nat} (h : n ≠ 0) :
    ∃ first rest, Nat.toDigits 10 n = first :: rest ∧ first ≠ '0' := by
  induction n using Nat.strongRecOn with
  | ind n ih =>
      by_cases hlast : n < 10
      · exact ⟨n.digitChar, [], Nat.toDigits_of_lt_base hlast, by simpa using h⟩
      · obtain ⟨first, rest, hdigits, hfirst⟩ := ih (n / 10) (by omega) (by omega)
        refine ⟨first, rest ++ [(n % 10).digitChar], ?_, hfirst⟩
        rw [Nat.toDigits_of_base_le (by omega) (by omega), hdigits, List.cons_append]

theorem digits?_append {digits rest : List Char} (hsome : digits ≠ [])
    (hdigits : ∀ c ∈ digits, c.isDigit = true) (hrest : EndsNumber rest) :
    digits? (digits ++ rest) = some (digits, rest) := by
  have htake : rest.takeWhile Char.isDigit = [] := by
    cases rest with
    | nil => rfl
    | cons c rest => simp [(hrest c rfl).1]
  have hdrop : rest.dropWhile Char.isDigit = rest := by
    cases rest with
    | nil => rfl
    | cons c rest => simp [(hrest c rfl).1]
  rw [digits?, List.takeWhile_append_of_pos hdigits, List.dropWhile_append_of_pos hdigits, htake,
    hdrop, List.append_nil]
  cases digits with
  | nil => exact absurd rfl hsome
  | cons c digits => rfl

theorem integer?_toDigits_append (n : Nat) {rest : List Char} (hrest : EndsNumber rest) :
    integer? (Nat.toDigits 10 n ++ rest) = some (Nat.toDigits 10 n, rest) := by
  by_cases hzero : n = 0
  · subst hzero
    rw [Nat.toDigits_zero, List.singleton_append]
    cases rest with
    | nil => rfl
    | cons c rest => simp [integer?, (hrest c rfl).1]
  · obtain ⟨first, digits, hdigits, hfirst⟩ := toDigits_eq_cons hzero
    have hread := digits?_append (Nat.toDigits_ne_nil (b := 10) (n := n))
      (fun c => isDigit_of_mem_toDigits) hrest
    rw [hdigits, List.cons_append] at hread ⊢
    rw [integer?, hread]
    simpa using hfirst

theorem fraction?_of_endsNumber {rest : List Char} (hrest : EndsNumber rest) :
    fraction? rest = some ([], rest) := by
  cases rest with
  | nil => rfl
  | cons c rest => simp [fraction?, (hrest c rfl).2.1]

theorem exponent?_of_endsNumber {rest : List Char} (hrest : EndsNumber rest) :
    exponent? rest = some ([], rest) := by
  cases rest with
  | nil => rfl
  | cons c rest => simp [exponent?, (hrest c rfl).2.2]

/-- A natural number is read back where it ends. -/
theorem number?_toDigits_append (n : Nat) {rest : List Char} (hrest : EndsNumber rest) :
    number? (Nat.toDigits 10 n ++ rest) = some (Nat.toDigits 10 n, rest) := by
  obtain ⟨first, digits, hdigits⟩ :=
    List.exists_cons_of_ne_nil (l := Nat.toDigits 10 n) Nat.toDigits_ne_nil
  have hdigit : first.isDigit = true := isDigit_of_mem_toDigits (n := n) (by simp [hdigits])
  have hsign : first ≠ '-' := by
    rintro rfl
    exact absurd hdigit (by decide)
  have hinteger := integer?_toDigits_append n hrest
  rw [hdigits, List.cons_append] at hinteger ⊢
  rw [number?]
  · simp [hinteger, fraction?_of_endsNumber hrest, exponent?_of_endsNumber hrest]
  · rintro _ ⟨⟩
    exact hsign rfl

/-- The value of the digits of a natural number. -/
theorem natUpTo?_ofNat {limit n : Nat} (h : n ≤ limit) : (ofNat n).natUpTo? limit = some n := by
  have hvalue : (Nat.toDigits 10 n).foldl (fun n c => 10 * n + (c.toNat - 48)) 0 = n := by
    have := Nat.ofDigitChars_ten_toDigits (n := n)
    rwa [Nat.ofDigitChars_eq_foldl] at this
  have hdigits : (Nat.toDigits 10 n).all Char.isDigit = true :=
    List.all_eq_true.mpr fun c => isDigit_of_mem_toDigits
  simp only [ofNat, natUpTo?, Nat.toString_eq_ofList_toDigits, String.toList_ofList, hdigits,
    hvalue, if_true, if_pos h]

end Json

end AudioCatalog
