import AudioCatalog.Proofs.Json.Tokens

/-!
# Values of JSON read back

The compact text of a value that this library makes is read back as that value.  The fuel
that `Json.parse?` takes from the length of the text is more than enough, since every level
of the recursion costs at least one character.
-/

namespace AudioCatalog.Json

/-- The values whose compact text says all about them: their numbers are natural, and
their literals and names have texts. -/
inductive Plain : Json → Prop where
  | null : Plain .null
  | bool (value : Bool) : Plain (.bool value)
  | number (n : Nat) : Plain (.ofNat n)
  | text (value : String) : Plain (.ofText value)
  | array {items : List Json} (each : ∀ item ∈ items, Plain item) : Plain (.array items)
  | object {members : List (String × Json)} (each : ∀ member ∈ members, Plain member.2) :
      Plain (.ofMembers members)

/-- Whether a value is read back from its compact form, whatever follows it. -/
def ReadsBack (value : Json) : Prop :=
  ∀ fuel rest, value.compactChars.length ≤ fuel → EndsNumber rest →
    value? fuel (value.compactChars ++ rest) = some (value, rest)

theorem compactItems_eq_map (items : List Json) : compactItems items = items.map compactChars := by
  induction items with
  | nil => rfl
  | cons item rest ih => rw [compactItems, ih, List.map_cons]

/-- The compact form of a member. -/
def memberChars (member : Option String × Json) : List Char :=
  literalChars member.1 ++ ':' :: member.2.compactChars

theorem compactMembers_eq_map (members : List (Option String × Json)) :
    compactMembers members = members.map memberChars := by
  induction members with
  | nil => rfl
  | cons member rest ih => rw [compactMembers, ih, List.map_cons, memberChars]

/-! ## First characters -/

/-- Whether characters begin with one that is not blank and closes nothing. -/
def Opens (cs : List Char) : Prop :=
  skipBlanks cs = cs ∧ ∀ c ∈ cs.head?, c ≠ ']' ∧ c ≠ '\x7d'

theorem skipBlanks_of_isDigit {c : Char} (h : c.isDigit = true) (cs : List Char) :
    skipBlanks (c :: cs) = c :: cs := by
  rw [skipBlanks, List.dropWhile_cons, if_neg]
  intro hblank
  simp only [Bool.or_eq_true, decide_eq_true_eq] at hblank
  rcases hblank with ((rfl | rfl) | rfl) | rfl <;> exact absurd h (by decide)

/-- The compact form of a plain value opens a token. -/
theorem opens_compactChars {value : Json} (hplain : value.Plain) (rest : List Char) :
    Opens (value.compactChars ++ rest) := by
  cases hplain with
  | null => exact ⟨rfl, by simp [compactChars]⟩
  | bool value => cases value <;> exact ⟨rfl, by simp [compactChars]⟩
  | number n =>
      obtain ⟨first, digits, hdigits⟩ :=
        List.exists_cons_of_ne_nil (l := Nat.toDigits 10 n) Nat.toDigits_ne_nil
      have hdigit : first.isDigit = true := isDigit_of_mem_toDigits (n := n) (by simp [hdigits])
      rw [ofNat, compactChars, Nat.toString_eq_repr, Nat.toList_repr, hdigits, List.cons_append]
      refine ⟨skipBlanks_of_isDigit hdigit _, ?_⟩
      rintro c ⟨⟩
      constructor <;> rintro rfl <;> exact absurd hdigit (by decide)
  | text value => exact ⟨rfl, by simp [compactChars, ofText, literalChars, JsonLiteral.write]⟩
  | array each => exact ⟨rfl, by simp [compactChars]⟩
  | object each => exact ⟨rfl, by simp [compactChars, ofMembers]⟩

/-- A value that begins with a digit is a number. -/
theorem value?_of_isDigit {c : Char} (h : c.isDigit = true) (fuel : Nat) (cs : List Char) :
    value? (fuel + 1) (c :: cs) =
      (number? (c :: cs)).map fun read => (.number (String.ofList read.1), read.2) := by
  rw [value?, skipBlanks_of_isDigit h]
  split
  case h_7 hcons =>
    cases hcons
    cases number? (c :: cs) <;> rfl
  -- No other first character of a value is a digit.
  all_goals
    rename_i hcons
    simp only [List.cons.injEq, reduceCtorEq] at hcons
  all_goals
    obtain ⟨rfl, _⟩ := hcons
    exact absurd h (by decide)

/-! ## Values without parts -/

theorem readsBack_null : ReadsBack .null := by
  intro fuel rest hfuel hrest
  obtain ⟨fuel, rfl⟩ := Nat.exists_eq_succ_of_ne_zero (Nat.ne_of_gt (Nat.zero_lt_of_lt hfuel))
  rw [value?.eq_2]
  rfl

theorem readsBack_bool (value : Bool) : ReadsBack (.bool value) := by
  intro fuel rest hfuel hrest
  cases value with
  | false =>
      obtain ⟨fuel, rfl⟩ := Nat.exists_eq_succ_of_ne_zero (Nat.ne_of_gt (Nat.zero_lt_of_lt hfuel))
      rw [value?.eq_2]
      rfl
  | true =>
      obtain ⟨fuel, rfl⟩ := Nat.exists_eq_succ_of_ne_zero (Nat.ne_of_gt (Nat.zero_lt_of_lt hfuel))
      rw [value?.eq_2]
      rfl

theorem readsBack_ofNat (n : Nat) : ReadsBack (.ofNat n) := by
  intro fuel rest hfuel hrest
  have hread := number?_toDigits_append n hrest
  obtain ⟨first, digits, hdigits⟩ :=
    List.exists_cons_of_ne_nil (l := Nat.toDigits 10 n) Nat.toDigits_ne_nil
  have hdigit : first.isDigit = true := isDigit_of_mem_toDigits (n := n) (by simp [hdigits])
  rw [ofNat, compactChars, Nat.toString_eq_repr, Nat.toList_repr, hdigits] at hfuel ⊢
  obtain ⟨fuel, rfl⟩ := Nat.exists_eq_succ_of_ne_zero (Nat.ne_of_gt (Nat.zero_lt_of_lt hfuel))
  rw [hdigits, List.cons_append] at hread
  rw [List.cons_append, Nat.succ_eq_add_one, value?_of_isDigit hdigit, hread, Option.map_some,
    ← hdigits, ← Nat.repr_eq_ofList_toDigits]

theorem readsBack_ofText (value : String) : ReadsBack (.ofText value) := by
  intro fuel rest hfuel hrest
  have hchars : (ofText value).compactChars ++ rest =
      '"' :: (value.toList.flatMap JsonLiteral.escape ++ '"' :: rest) := by
    simp [ofText, compactChars, literalChars, JsonLiteral.write]
  obtain ⟨fuel, rfl⟩ := Nat.exists_eq_succ_of_ne_zero (Nat.ne_of_gt (Nat.zero_lt_of_lt hfuel))
  rw [hchars, value?.eq_2, skipBlanks, List.dropWhile_cons, if_neg (by decide)]
  simp only [literal?_write]
  rfl

/-! ## Arrays and objects -/

theorem endsNumber_cons {c : Char} (rest : List Char)
    (h : c.isDigit = false ∧ c ≠ '.' ∧ c ≠ 'e' ∧ c ≠ 'E') : EndsNumber (c :: rest) := by
  rintro _ ⟨⟩
  exact h

theorem items?_joined {items : List Json} (hsome : items ≠ [])
    (hback : ∀ item ∈ items, item.ReadsBack) (fuel : Nat) (rest : List Char)
    (hfuel : (joined [','] (items.map compactChars)).length + 1 ≤ fuel) :
    items? fuel (joined [','] (items.map compactChars) ++ ']' :: rest) = some (items, rest) := by
  induction items generalizing fuel with
  | nil => exact absurd rfl hsome
  | cons item items ih =>
      obtain ⟨fuel, rfl⟩ := Nat.exists_eq_succ_of_ne_zero (Nat.ne_of_gt (Nat.zero_lt_of_lt hfuel))
      have hitem := hback item List.mem_cons_self
      cases items with
      | nil =>
          have hread := hitem fuel (']' :: rest) (by simpa [joined] using hfuel)
            (endsNumber_cons _ (by decide))
          simp only [List.map_cons, List.map_nil, joined]
          rw [items?.eq_2, hread]
          rfl
      | cons next items =>
          simp only [List.map_cons, joined, List.length_append, List.length_singleton] at hfuel ih ⊢
          have hread := hitem fuel
            (',' :: (joined [','] (next.compactChars :: items.map compactChars) ++ ']' :: rest))
            (by omega) (endsNumber_cons _ (by decide))
          have hrest := ih (by simp)
            (fun item hmem => hback item (List.mem_cons_of_mem _ hmem)) fuel (by omega)
          rw [List.append_assoc, List.append_assoc, List.singleton_append, items?.eq_2, hread]
          simp only [Option.bind_eq_bind, Option.bind_some]
          rw [skipBlanks, List.dropWhile_cons, if_neg (by decide)]
          simp only [hrest]
          rfl

/-- The first member is read up to what follows its value. -/
theorem members?_memberChars (name : String) {value : Json} (hback : value.ReadsBack) (fuel : Nat)
    (rest : List Char) (hfuel : value.compactChars.length ≤ fuel) (hrest : EndsNumber rest) :
    members? (fuel + 1) (memberChars (some name, value) ++ rest) =
      match skipBlanks rest with
      | ',' :: rest => do
        let (members, rest) ← members? fuel rest
        return ((some name, value) :: members, rest)
      | '\x7d' :: rest => return ([(some name, value)], rest)
      | _ => none := by
  have hchars : memberChars (some name, value) ++ rest =
      '"' :: (name.toList.flatMap JsonLiteral.escape ++
        '"' :: ':' :: (value.compactChars ++ rest)) := by
    simp [memberChars, literalChars, JsonLiteral.write]
  rw [hchars, members?.eq_2, skipBlanks, List.dropWhile_cons, if_neg (by decide)]
  simp only [literal?_write, Option.bind_eq_bind, Option.bind_some]
  rw [skipBlanks, List.dropWhile_cons, if_neg (by decide)]
  exact congrArg (fun read => Option.bind read _) (hback fuel rest hfuel hrest)

theorem members?_joined {members : List (Option String × Json)} (hsome : members ≠ [])
    (hnamed : ∀ member ∈ members, member.1.isSome) (hback : ∀ member ∈ members, member.2.ReadsBack)
    (fuel : Nat) (rest : List Char)
    (hfuel : (joined [','] (members.map memberChars)).length + 1 ≤ fuel) :
    members? fuel (joined [','] (members.map memberChars) ++ '\x7d' :: rest) =
      some (members, rest) := by
  induction members generalizing fuel with
  | nil => exact absurd rfl hsome
  | cons member members ih =>
      obtain ⟨name, value⟩ := member
      obtain ⟨name, rfl⟩ := Option.isSome_iff_exists.mp (hnamed _ List.mem_cons_self)
      obtain ⟨fuel, rfl⟩ := Nat.exists_eq_succ_of_ne_zero (Nat.ne_of_gt (Nat.zero_lt_of_lt hfuel))
      have hvalue : value.ReadsBack := hback _ List.mem_cons_self
      have hlength : value.compactChars.length ≤ (memberChars (some name, value)).length := by
        simp only [memberChars, List.length_append, List.length_cons]
        omega
      cases members with
      | nil =>
          simp only [List.map_cons, List.map_nil, joined] at hfuel ⊢
          rw [Nat.succ_eq_add_one, members?_memberChars name hvalue fuel _ (by omega)
            (endsNumber_cons _ (by decide))]
          rfl
      | cons next members =>
          simp only [List.map_cons, joined, List.length_append, List.length_singleton]
            at hfuel ih ⊢
          have hrest := ih (by simp)
            (fun member hmem => hnamed member (List.mem_cons_of_mem _ hmem))
            (fun member hmem => hback member (List.mem_cons_of_mem _ hmem)) fuel (by omega)
          rw [List.append_assoc, List.append_assoc, List.singleton_append, Nat.succ_eq_add_one,
            members?_memberChars name hvalue fuel _ (by omega) (endsNumber_cons _ (by decide)),
            skipBlanks, List.dropWhile_cons, if_neg (by decide)]
          simp only [hrest]
          rfl

theorem opens_joined {pieces : List (List Char)} (hsome : pieces ≠ [])
    (hopens : ∀ piece ∈ pieces, ∀ rest, Opens (piece ++ rest)) (rest : List Char) :
    Opens (joined [','] pieces ++ rest) := by
  cases pieces with
  | nil => exact absurd rfl hsome
  | cons piece pieces =>
      cases pieces with
      | nil => exact hopens piece List.mem_cons_self rest
      | cons next pieces =>
          rw [joined, List.append_assoc, List.append_assoc]
          · exact hopens piece List.mem_cons_self _
          · simp

theorem readsBack_array {items : List Json} (hplain : ∀ item ∈ items, item.Plain)
    (hback : ∀ item ∈ items, item.ReadsBack) : ReadsBack (.array items) := by
  intro fuel rest hfuel hrest
  obtain ⟨fuel, rfl⟩ := Nat.exists_eq_succ_of_ne_zero (Nat.ne_of_gt (Nat.zero_lt_of_lt hfuel))
  by_cases hsome : items = []
  · subst hsome
    rw [value?.eq_2]
    rfl
  · have hopens : Opens (joined [','] (items.map compactChars) ++ ']' :: rest) := by
      refine opens_joined (by simpa using hsome) (fun piece hmem => ?_) _
      obtain ⟨item, hitem, rfl⟩ := List.mem_map.mp hmem
      exact opens_compactChars (hplain item hitem)
    rw [compactChars, compactItems_eq_map] at hfuel ⊢
    simp only [List.length_cons, List.length_append, List.length_nil] at hfuel
    have hitems := items?_joined hsome hback fuel rest (by omega)
    rw [List.cons_append, List.append_assoc, List.singleton_append, value?.eq_2, skipBlanks,
      List.dropWhile_cons, if_neg (by decide)]
    simp only [hopens.1, hitems, Option.bind_eq_bind, Option.bind_some]
    split
    · rename_i heq
      exact absurd rfl (hopens.2 ']' (by rw [heq]; rfl)).1
    · rfl

theorem readsBack_object {members : List (String × Json)}
    (hback : ∀ member ∈ members, member.2.ReadsBack) : ReadsBack (.ofMembers members) := by
  intro fuel rest hfuel hrest
  obtain ⟨fuel, rfl⟩ := Nat.exists_eq_succ_of_ne_zero (Nat.ne_of_gt (Nat.zero_lt_of_lt hfuel))
  have hmembers : ofMembers members =
      .object (members.map fun member => (some member.1, member.2)) := rfl
  rw [hmembers] at hfuel ⊢
  generalize hnames : members.map (fun member => (some member.1, member.2)) = named at hfuel ⊢
  have hnamed : ∀ member ∈ named, member.1.isSome := by
    subst hnames
    intro member hmem
    obtain ⟨_, _, rfl⟩ := List.mem_map.mp hmem
    rfl
  have hvalues : ∀ member ∈ named, member.2.ReadsBack := by
    subst hnames
    intro member hmem
    obtain ⟨member, hmember, rfl⟩ := List.mem_map.mp hmem
    exact hback member hmember
  by_cases hsome : named = []
  · subst hsome
    rw [value?.eq_2]
    rfl
  · have hopens : Opens (joined [','] (named.map memberChars) ++ '\x7d' :: rest) := by
      refine opens_joined (by simpa using hsome) (fun piece hmem => ?_) _
      obtain ⟨member, hmember, rfl⟩ := List.mem_map.mp hmem
      intro rest
      exact ⟨rfl, by simp [memberChars, literalChars, JsonLiteral.write]⟩
    rw [compactChars, compactMembers_eq_map] at hfuel ⊢
    simp only [List.length_cons, List.length_append, List.length_nil] at hfuel
    have hmembers := members?_joined hsome hnamed hvalues fuel rest (by omega)
    rw [List.cons_append, List.append_assoc, List.singleton_append, value?.eq_2, skipBlanks,
      List.dropWhile_cons, if_neg (by decide)]
    simp only [hopens.1, hmembers, Option.bind_eq_bind, Option.bind_some]
    split
    · rename_i heq
      exact absurd rfl (hopens.2 '\x7d' (by rw [heq]; rfl)).2
    · rfl

/-! ## Plain values -/

theorem Plain.readsBack {value : Json} (hplain : value.Plain) : value.ReadsBack := by
  induction hplain with
  | null => exact readsBack_null
  | bool value => exact readsBack_bool value
  | number n => exact readsBack_ofNat n
  | text value => exact readsBack_ofText value
  | array each ih => exact readsBack_array each ih
  | object each ih => exact readsBack_object ih

/-- The compact text of a plain value is read back as the value. -/
theorem parse?_compact {value : Json} (hplain : value.Plain) :
    parse? value.compact = some value := by
  have hread := hplain.readsBack (2 * value.compactChars.length + 2) [] (by omega)
    (by rintro _ ⟨⟩)
  rw [List.append_nil] at hread
  rw [parse?, compact, String.toList_ofList]
  simp only [hread, Option.bind_eq_bind, Option.bind_some]
  rfl

end AudioCatalog.Json
