import AudioCatalog.Pathname
import Mathlib.Tactic.SplitIfs

/-!
# UTF-8 read and written

Text survives its encoding, and a byte string that can be decoded is the encoding of its
text.  So the path names that are text correspond to their texts one to one.
-/

namespace AudioCatalog

namespace Utf8

/-! ## Bytes by their numbers -/

theorem isContinuation_iff (byte : UInt8) :
    isContinuation byte = true ↔ 128 ≤ byte.toNat ∧ byte.toNat ≤ 191 := by
  simp [isContinuation, UInt8.le_iff_toNat_le]

/-- The lowest number of a second byte, by its lead. -/
def leastSecond (lead : Nat) : Nat :=
  if lead = 224 then 160 else if lead = 240 then 144 else 128

/-- The highest number of a second byte, by its lead. -/
def greatestSecond (lead : Nat) : Nat :=
  if lead = 237 then 159 else if lead = 244 then 143 else 191

theorem isSecond_iff (lead second : UInt8) :
    isSecond lead second = true ↔
      leastSecond lead.toNat ≤ second.toNat ∧ second.toNat ≤ greatestSecond lead.toNat := by
  simp only [isSecond, leastSecond, greatestSecond, ← UInt8.toNat_inj, UInt8.reduceToNat]
  split_ifs <;> simp_all [isContinuation_iff, UInt8.le_iff_toNat_le]

theorem toNat_ofNat_of_lt {n : Nat} (h : n < 256) : (UInt8.ofNat n).toNat = n := by
  rw [UInt8.toNat_ofNat', Nat.mod_eq_of_lt h]

theorem ofNat_eq_of_toNat {b : UInt8} {n : Nat} (h : b.toNat = n) : UInt8.ofNat n = b := by
  rw [← h, UInt8.ofNat_toNat]

/-! ## Sequences of one to four bytes -/

theorem pieces_one {a : UInt8} (rest : List UInt8) (ha : a.toNat < 128) :
    pieces (a :: rest) = some (Char.ofNat a.toNat) :: pieces rest := by
  have hlow : a < 0x80 := by simpa [UInt8.lt_iff_toNat_lt] using ha
  rw [pieces.eq_def]
  simp only [hlow, if_true]

theorem pieces_two {a b : UInt8} (rest : List UInt8) (ha : 194 ≤ a.toNat) (ha' : a.toNat < 224)
    (hb : isSecond a b = true) :
    pieces (a :: b :: rest) =
      some (Char.ofNat (a.toNat % 32 * 64 + payload b)) :: pieces rest := by
  have hhigh : ¬ a < 0x80 := by simp [UInt8.lt_iff_toNat_lt]; omega
  have hlead : (decide (a < 0xC2) || decide (0xF4 < a)) = false := by
    simp [UInt8.lt_iff_toNat_lt]; omega
  have htwo : a < 0xE0 := by simpa [UInt8.lt_iff_toNat_lt] using ha'
  rw [pieces.eq_def]
  simp only [hhigh, hlead, hb, htwo, if_true, if_false, Bool.not_true, Bool.false_eq_true]

theorem pieces_three {a b c : UInt8} (rest : List UInt8) (ha : 224 ≤ a.toNat)
    (ha' : a.toNat < 240) (hb : isSecond a b = true) (hc : isContinuation c = true) :
    pieces (a :: b :: c :: rest) =
      some (Char.ofNat ((a.toNat % 16 * 64 + payload b) * 64 + payload c)) :: pieces rest := by
  have hhigh : ¬ a < 0x80 := by simp [UInt8.lt_iff_toNat_lt]; omega
  have hlead : (decide (a < 0xC2) || decide (0xF4 < a)) = false := by
    simp [UInt8.lt_iff_toNat_lt]; omega
  have hmore : ¬ a < 0xE0 := by simp [UInt8.lt_iff_toNat_lt]; omega
  have hthree : a < 0xF0 := by simpa [UInt8.lt_iff_toNat_lt] using ha'
  rw [pieces.eq_def]
  simp only [hhigh, hlead, hb, hmore, hc, hthree, if_true, if_false, Bool.not_true,
    Bool.false_eq_true]

theorem pieces_four {a b c d : UInt8} (rest : List UInt8) (ha : 240 ≤ a.toNat)
    (ha' : a.toNat ≤ 244) (hb : isSecond a b = true) (hc : isContinuation c = true)
    (hd : isContinuation d = true) :
    pieces (a :: b :: c :: d :: rest) =
      some (Char.ofNat (((a.toNat % 8 * 64 + payload b) * 64 + payload c) * 64 + payload d)) ::
        pieces rest := by
  have hhigh : ¬ a < 0x80 := by simp [UInt8.lt_iff_toNat_lt]; omega
  have hlead : (decide (a < 0xC2) || decide (0xF4 < a)) = false := by
    simp [UInt8.lt_iff_toNat_lt]; omega
  have hmore : ¬ a < 0xE0 := by simp [UInt8.lt_iff_toNat_lt]; omega
  have hfour : ¬ a < 0xF0 := by simp [UInt8.lt_iff_toNat_lt]; omega
  rw [pieces.eq_def]
  simp only [hhigh, hlead, hb, hmore, hc, hfour, hd, if_false, Bool.not_true,
    Bool.false_eq_true]

/-! ## Characters -/

theorem toNat_val_ofNat {n : Nat} (h : n.isValidChar) : (Char.ofNat n).val.toNat = n := by
  have heq : Char.ofNat n = Char.ofNatAux n h := dif_pos h
  rw [heq]
  rfl

/-- What a character is encoded to is read back as this one piece. -/
theorem pieces_utf8EncodeChar_append (c : Char) (rest : List UInt8) :
    pieces (String.utf8EncodeChar c ++ rest) = some c :: pieces rest := by
  have hvalid : c.val.toNat < 0xd800 ∨ 0xdfff < c.val.toNat ∧ c.val.toNat < 0x110000 := c.valid
  have hc : Char.ofNat c.val.toNat = c := Char.ofNat_toNat c
  generalize hn : c.val.toNat = n at hvalid hc
  simp only [String.utf8EncodeChar, hn]
  split_ifs with h1 h2 h3
  · have ha := toNat_ofNat_of_lt (n := n) (by omega)
    rw [List.singleton_append, pieces_one rest (by omega), ha, hc]
  · have ha := toNat_ofNat_of_lt (n := n / 64 % 0x20 + 0xc0) (by omega)
    have hb := toNat_ofNat_of_lt (n := n % 0x40 + 0x80) (by omega)
    have hsecond : isSecond (UInt8.ofNat (n / 64 % 0x20 + 0xc0))
        (UInt8.ofNat (n % 0x40 + 0x80)) = true := by
      rw [isSecond_iff, ha, hb, leastSecond, greatestSecond]
      split_ifs <;> omega
    rw [List.cons_append, List.singleton_append, pieces_two rest (by omega) (by omega) hsecond,
      payload, ha, hb, ← hc]
    congr 3
    omega
  · have ha := toNat_ofNat_of_lt (n := n / 4096 % 0x10 + 0xe0) (by omega)
    have hb := toNat_ofNat_of_lt (n := n / 64 % 0x40 + 0x80) (by omega)
    have hd := toNat_ofNat_of_lt (n := n % 0x40 + 0x80) (by omega)
    have hsecond : isSecond (UInt8.ofNat (n / 4096 % 0x10 + 0xe0))
        (UInt8.ofNat (n / 64 % 0x40 + 0x80)) = true := by
      rw [isSecond_iff, ha, hb, leastSecond, greatestSecond]
      split_ifs <;> omega
    have hthird : isContinuation (UInt8.ofNat (n % 0x40 + 0x80)) = true := by
      rw [isContinuation_iff, hd]
      omega
    rw [List.cons_append, List.cons_append, List.singleton_append,
      pieces_three rest (by omega) (by omega) hsecond hthird, payload, payload, ha, hb, hd, ← hc]
    congr 3
    omega
  · have ha := toNat_ofNat_of_lt (n := n / 262144 % 0x08 + 0xf0) (by omega)
    have hb := toNat_ofNat_of_lt (n := n / 4096 % 0x40 + 0x80) (by omega)
    have hd := toNat_ofNat_of_lt (n := n / 64 % 0x40 + 0x80) (by omega)
    have he := toNat_ofNat_of_lt (n := n % 0x40 + 0x80) (by omega)
    have hsecond : isSecond (UInt8.ofNat (n / 262144 % 0x08 + 0xf0))
        (UInt8.ofNat (n / 4096 % 0x40 + 0x80)) = true := by
      rw [isSecond_iff, ha, hb, leastSecond, greatestSecond]
      split_ifs <;> omega
    have hthird : isContinuation (UInt8.ofNat (n / 64 % 0x40 + 0x80)) = true := by
      rw [isContinuation_iff, hd]
      omega
    have hfourth : isContinuation (UInt8.ofNat (n % 0x40 + 0x80)) = true := by
      rw [isContinuation_iff, he]
      omega
    rw [List.cons_append, List.cons_append, List.cons_append, List.singleton_append,
      pieces_four rest (by omega) (by omega) hsecond hthird hfourth, payload, payload, payload,
      ha, hb, hd, he, ← hc]
    congr 3
    omega

theorem mapM_pieces_encodeChars (cs : List Char) :
    (pieces (cs.flatMap String.utf8EncodeChar)).mapM id = some cs := by
  induction cs with
  | nil => simp [pieces]
  | cons c rest ih => simp [pieces_utf8EncodeChar_append, ih]

/-- Text survives its encoding. -/
theorem decode?_encode (text : String) : decode? (encode text) = some text := by
  rw [decode?, encode, mapM_pieces_encodeChars, Option.map_some, String.ofList_toList]

theorem utf8EncodeChar_one {a : UInt8} (ha : a.toNat < 128) :
    String.utf8EncodeChar (Char.ofNat a.toNat) = [a] := by
  have hn := toNat_val_ofNat (n := a.toNat) (.inl (by omega))
  simp only [String.utf8EncodeChar, hn]
  rw [if_pos (by omega), ofNat_eq_of_toNat rfl]

theorem utf8EncodeChar_two {a b : UInt8} (ha : 194 ≤ a.toNat) (ha' : a.toNat < 224)
    (hb : isSecond a b = true) :
    String.utf8EncodeChar (Char.ofNat (a.toNat % 32 * 64 + payload b)) = [a, b] := by
  obtain ⟨hb, hb'⟩ := (isSecond_iff a b).mp hb
  simp only [leastSecond, greatestSecond] at hb hb'
  split_ifs at hb hb' <;> try omega
  generalize hn : a.toNat % 32 * 64 + payload b = n
  rw [payload] at hn
  have hval := toNat_val_ofNat (n := n) (.inl (by omega))
  simp only [String.utf8EncodeChar, hval]
  rw [if_neg (by omega), if_pos (by omega), ofNat_eq_of_toNat (b := a) (by omega),
    ofNat_eq_of_toNat (b := b) (by omega)]

theorem utf8EncodeChar_three {a b c : UInt8} (ha : 224 ≤ a.toNat) (ha' : a.toNat < 240)
    (hb : isSecond a b = true) (hc : isContinuation c = true) :
    String.utf8EncodeChar (Char.ofNat ((a.toNat % 16 * 64 + payload b) * 64 + payload c)) =
      [a, b, c] := by
  obtain ⟨hb, hb'⟩ := (isSecond_iff a b).mp hb
  obtain ⟨hc, hc'⟩ := (isContinuation_iff c).mp hc
  generalize hn : (a.toNat % 16 * 64 + payload b) * 64 + payload c = n
  rw [payload, payload] at hn
  have hrange : 0x800 ≤ n ∧ n < 0x10000 ∧ (n < 0xd800 ∨ 0xdfff < n) := by
    simp only [leastSecond, greatestSecond] at hb hb'
    split_ifs at hb hb' <;> omega
  have hseconds : 128 ≤ b.toNat ∧ b.toNat ≤ 191 := by
    simp only [leastSecond, greatestSecond] at hb hb'
    split_ifs at hb hb' <;> omega
  have hval := toNat_val_ofNat (n := n) (by rw [Nat.isValidChar]; omega)
  simp only [String.utf8EncodeChar, hval]
  rw [if_neg (by omega), if_neg (by omega), if_pos (by omega),
    ofNat_eq_of_toNat (b := a) (by omega), ofNat_eq_of_toNat (b := b) (by omega),
    ofNat_eq_of_toNat (b := c) (by omega)]

theorem utf8EncodeChar_four {a b c d : UInt8} (ha : 240 ≤ a.toNat) (ha' : a.toNat ≤ 244)
    (hb : isSecond a b = true) (hc : isContinuation c = true) (hd : isContinuation d = true) :
    String.utf8EncodeChar
        (Char.ofNat (((a.toNat % 8 * 64 + payload b) * 64 + payload c) * 64 + payload d)) =
      [a, b, c, d] := by
  obtain ⟨hb, hb'⟩ := (isSecond_iff a b).mp hb
  obtain ⟨hc, hc'⟩ := (isContinuation_iff c).mp hc
  obtain ⟨hd, hd'⟩ := (isContinuation_iff d).mp hd
  generalize hn : ((a.toNat % 8 * 64 + payload b) * 64 + payload c) * 64 + payload d = n
  rw [payload, payload, payload] at hn
  have hrange : 0x10000 ≤ n ∧ n < 0x110000 := by
    simp only [leastSecond, greatestSecond] at hb hb'
    split_ifs at hb hb' <;> omega
  have hseconds : 128 ≤ b.toNat ∧ b.toNat ≤ 191 := by
    simp only [leastSecond, greatestSecond] at hb hb'
    split_ifs at hb hb' <;> omega
  have hval := toNat_val_ofNat (n := n) (by rw [Nat.isValidChar]; omega)
  simp only [String.utf8EncodeChar, hval]
  rw [if_neg (by omega), if_neg (by omega), if_neg (by omega),
    ofNat_eq_of_toNat (b := a) (by omega), ofNat_eq_of_toNat (b := b) (by omega),
    ofNat_eq_of_toNat (b := c) (by omega), ofNat_eq_of_toNat (b := d) (by omega)]

theorem mapM_some_cons {c : Char} {rest : List (Option Char)} {cs : List Char}
    (h : (some c :: rest).mapM id = some cs) :
    ∃ tail, rest.mapM id = some tail ∧ cs = c :: tail := by
  cases hrest : rest.mapM id with
  | none => simp [hrest] at h
  | some tail =>
      refine ⟨tail, rfl, ?_⟩
      simpa [hrest] using h.symm

theorem not_mapM_none_cons {rest : List (Option Char)} {cs : List Char} :
    (none :: rest).mapM id ≠ some cs := by
  simp

theorem toNat_of_lead {a : UInt8}
    (h : ¬(decide (a < 0xC2) || decide (0xF4 < a)) = true) : 194 ≤ a.toNat ∧ a.toNat ≤ 244 := by
  simpa [UInt8.lt_iff_toNat_lt] using h

/-- Bytes whose pieces are all characters are the encoding of these. -/
theorem flatMap_encodeChar_of_mapM_pieces (bytes : List UInt8) :
    ∀ cs, (pieces bytes).mapM id = some cs → cs.flatMap String.utf8EncodeChar = bytes := by
  fun_induction pieces bytes with
  | case1 => simp
  | case2 a rest hlow ih =>
      intro cs hcs
      obtain ⟨tail, htail, rfl⟩ := mapM_some_cons hcs
      rw [List.flatMap_cons, ih tail htail, utf8EncodeChar_one (UInt8.lt_iff_toNat_lt.mp hlow),
        List.singleton_append]
  | case6 a hhigh hlead b rest hb htwo ih =>
      intro cs hcs
      obtain ⟨tail, htail, rfl⟩ := mapM_some_cons hcs
      rw [List.flatMap_cons, ih tail htail,
        utf8EncodeChar_two (toNat_of_lead hlead).1 (UInt8.lt_iff_toNat_lt.mp htwo)
          (by simpa using hb)]
      rfl
  | case9 a hhigh hlead b hb hmore c rest hc hthree ih =>
      intro cs hcs
      obtain ⟨tail, htail, rfl⟩ := mapM_some_cons hcs
      rw [List.flatMap_cons, ih tail htail,
        utf8EncodeChar_three (by simpa [UInt8.le_iff_toNat_le] using hmore)
          (UInt8.lt_iff_toNat_lt.mp hthree) (by simpa using hb) (by simpa using hc)]
      rfl
  | case12 a hhigh hlead b hb hmore c hc hfour d rest hd ih =>
      intro cs hcs
      obtain ⟨tail, htail, rfl⟩ := mapM_some_cons hcs
      rw [List.flatMap_cons, ih tail htail,
        utf8EncodeChar_four (by simpa [UInt8.le_iff_toNat_le] using hfour) (toNat_of_lead hlead).2
          (by simpa using hb) (by simpa using hc) (by simpa using hd)]
      rfl
  -- The other cases begin with a broken stretch.
  | _ =>
      intro cs hcs
      exact absurd hcs not_mapM_none_cons

/-- A byte string that can be decoded is the encoding of its text. -/
theorem encode_of_decode? {bytes : List UInt8} {text : String} (h : decode? bytes = some text) :
    encode text = bytes := by
  rw [decode?, Option.map_eq_some_iff] at h
  obtain ⟨cs, hcs, rfl⟩ := h
  rw [encode, String.toList_ofList, flatMap_encodeChar_of_mapM_pieces bytes cs hcs]

theorem map_getD_of_mapM {pieces : List (Option Char)} :
    ∀ {cs : List Char}, pieces.mapM id = some cs → pieces.map (·.getD '\uFFFD') = cs := by
  induction pieces with
  | nil =>
      intro cs h
      cases h
      rfl
  | cons piece rest ih =>
      intro cs h
      cases piece with
      | none => exact absurd h not_mapM_none_cons
      | some c =>
          obtain ⟨tail, htail, rfl⟩ := mapM_some_cons h
          rw [List.map_cons, ih htail, Option.getD_some]

/-- What can be decoded is shown as its text. -/
theorem decodeLossy_of_decode? {bytes : List UInt8} {text : String}
    (h : decode? bytes = some text) : decodeLossy bytes = text := by
  rw [decode?, Option.map_eq_some_iff] at h
  obtain ⟨cs, hcs, rfl⟩ := h
  rw [decodeLossy, map_getD_of_mapM hcs]

end Utf8

namespace Pathname

/-- Every text is the text of the path name that is written with it. -/
@[simp]
theorem text?_ofText (text : String) : (ofText text).text? = some text :=
  Utf8.decode?_encode text

/-- A path name with a text is the one that is written with this text. -/
theorem ofText_of_text? {path : Pathname} {text : String} (h : path.text? = some text) :
    ofText text = path := by
  rw [ofText, Utf8.encode_of_decode? h]

/-- A path name with a text is shown as it. -/
theorem shown_of_text? {path : Pathname} {text : String} (h : path.text? = some text) :
    path.shown = text :=
  Utf8.decodeLossy_of_decode? h

end Pathname

end AudioCatalog
