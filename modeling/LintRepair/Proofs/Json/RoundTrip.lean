import LintRepair.Proofs.Json.Numeral
import LintRepair.Proofs.Json.Quote

/-!
# The compact form is read back

Every JSON value is read back from its compact form, whatever stands behind it, as long as that
does not continue a numeral.  The reader is bounded by a fuel that the length of the text always
covers, and the proof is an induction on this fuel: items and members are read back when the values
in them are, and the values in them are read with less fuel.
-/

namespace LintRepair

namespace Json

/-- With so much fuel, every value whose compact form is shorter is read back from it. -/
def ReadsBack (fuel : Nat) : Prop :=
  ∀ value rest, (compact value).length < fuel → EndsNumeral rest →
    readValue? fuel (compact value ++ rest) = some (value, rest)

/-! ### What a compact form starts with -/

theorem skipGap_cons {c : Char} (token : isGap c = false) (s : Text) :
    skipGap (c :: s) = c :: s := by
  simp [skipGap, token]

theorem endsNumeral_nil : EndsNumeral [] := by
  rintro c ⟨⟩

theorem endsNumeral_comma (s : Text) : EndsNumeral (',' :: s) := by
  rintro c ⟨⟩
  decide

theorem endsNumeral_bracket (s : Text) : EndsNumeral (']' :: s) := by
  rintro c ⟨⟩
  decide

theorem endsNumeral_brace (s : Text) : EndsNumeral ('}' :: s) := by
  rintro c ⟨⟩
  decide

/-- The characters that start a value which is no number, and the one that closes an array. -/
def marks : List Char := ['"', '[', '{', 'n', 't', 'f', ']']

theorem digitChar_no_mark (d : Digit) : isGap (digitChar d) = false ∧ digitChar d ∉ marks := by
  revert d
  decide

/-- A numeral starts with a token that is none of these. -/
theorem exists_numeral_eq_cons (n : JsonNumber) :
    ∃ c s, numeral n = c :: s ∧ isGap c = false ∧ c ∉ marks := by
  obtain ⟨d, others, first⟩ := exists_decimal_eq_cons n.whole
  rw [numeral_eq, first]
  cases n.negative with
  | true => exact ⟨'-', _, rfl, by decide⟩
  | false => exact ⟨digitChar d, _, rfl, digitChar_no_mark d⟩

/-- A value starts with a token, and with none that closes an array. -/
theorem exists_compact_eq_cons (value : Json) :
    ∃ c s, compact value = c :: s ∧ isGap c = false ∧ c ≠ ']' := by
  cases value with
  | null => exact ⟨_, _, rfl, rfl, by decide⟩
  | bool b => cases b <;> exact ⟨_, _, rfl, rfl, by decide⟩
  | number n =>
      obtain ⟨c, s, written, token, mark⟩ := exists_numeral_eq_cons n
      exact ⟨c, s, written, token, fun close => mark (by rw [close]; decide)⟩
  | string s => exact ⟨_, _, rfl, rfl, by decide⟩
  | unpaired => exact ⟨_, _, rfl, rfl, by decide⟩
  | array items => exact ⟨_, _, by rw [compact, List.cons_append], rfl, by decide⟩
  | object members => exact ⟨_, _, by rw [compact, List.cons_append], rfl, by decide⟩

/-! ### Items and members -/

theorem compactItems_cons (item next : Json) (items : List Json) (rest : Text) :
    compactItems (item :: next :: items) ++ rest =
      compact item ++ ',' :: (compactItems (next :: items) ++ rest) := by
  rw [compactItems, List.append_assoc, List.cons_append]

theorem exists_compactItems_eq_cons (item : Json) (items : List Json) :
    ∃ c s, compactItems (item :: items) = c :: s ∧ isGap c = false ∧ c ≠ ']' := by
  obtain ⟨c, s, first, token, close⟩ := exists_compact_eq_cons item
  cases items with
  | nil => exact ⟨c, s, by rw [compactItems, first], token, close⟩
  | cons next items => exact ⟨c, _, by rw [compactItems, first]; rfl, token, close⟩

theorem readItems?_compactItems {fuel : Nat} (reads : ∀ f < fuel, ReadsBack f) (item : Json)
    (items : List Json) (rest : Text)
    (room : (compactItems (item :: items)).length + 1 < fuel) :
    readItems? fuel (compactItems (item :: items) ++ ']' :: rest) =
      some (item :: items, rest) := by
  obtain ⟨f, rfl⟩ : ∃ f, fuel = f + 1 := ⟨fuel - 1, by omega⟩
  induction items generalizing item f with
  | nil =>
      rw [compactItems] at room ⊢
      have first := reads f (by omega) item (']' :: rest) (by omega) (endsNumeral_bracket rest)
      simp [readItems?, first, skipGap_cons, isGap]
  | cons next items ih =>
      have lengths := congrArg List.length (compactItems_cons item next items [])
      simp only [List.append_nil, List.length_append, List.length_cons] at lengths
      have first := reads f (by omega) item (',' :: (compactItems (next :: items) ++ ']' :: rest))
        (by omega) (endsNumeral_comma _)
      obtain ⟨g, rfl⟩ : ∃ g, f = g + 1 := ⟨f - 1, by omega⟩
      have others := ih next g (fun f less => reads f (by omega)) (by omega)
      rw [compactItems_cons, readItems?, first]
      simp [skipGap_cons, isGap, others]

theorem compactMembers_cons (key : Text) (value : Json) (next : Text × Json)
    (members : List (Text × Json)) (rest : Text) :
    compactMembers ((key, value) :: next :: members) ++ rest =
      quote key ++ ':' :: (compact value ++ ',' :: (compactMembers (next :: members) ++ rest)) := by
  rw [compactMembers, List.append_assoc, List.cons_append, List.append_assoc, List.cons_append]

theorem exists_compactMembers_eq_cons (member : Text × Json) (members : List (Text × Json)) :
    ∃ s, compactMembers (member :: members) = '"' :: s := by
  cases members with
  | nil => exact ⟨_, by rw [compactMembers]; rfl⟩
  | cons next members => exact ⟨_, by rw [compactMembers]; rfl⟩

theorem readMembers?_compactMembers {fuel : Nat} (reads : ∀ f < fuel, ReadsBack f)
    (member : Text × Json) (members : List (Text × Json)) (rest : Text)
    (room : (compactMembers (member :: members)).length + 1 < fuel) :
    readMembers? fuel (compactMembers (member :: members) ++ '}' :: rest) =
      some ((member :: members).map (fun m => (some m.1, m.2)), rest) := by
  obtain ⟨f, rfl⟩ : ∃ f, fuel = f + 1 := ⟨fuel - 1, by omega⟩
  induction members generalizing member f with
  | nil =>
      obtain ⟨key, value⟩ := member
      obtain ⟨parts, keyRead, text⟩ := exists_parts key
      simp only [compactMembers, List.length_append, List.length_cons] at room
      have valueRead := reads f (by omega) value ('}' :: rest) (by omega) (endsNumeral_brace rest)
      rw [compactMembers, List.append_assoc, quote_append, List.cons_append]
      simp [readMembers?, skipGap_cons, isGap, Text.after?, keyRead, text, valueRead]
  | cons next members ih =>
      obtain ⟨key, value⟩ := member
      obtain ⟨parts, keyRead, text⟩ := exists_parts key
      have lengths := congrArg List.length (compactMembers_cons key value next members [])
      simp only [List.append_nil, List.length_append, List.length_cons] at lengths
      have valueRead := reads f (by omega) value
        (',' :: (compactMembers (next :: members) ++ '}' :: rest)) (by omega)
        (endsNumeral_comma _)
      obtain ⟨g, rfl⟩ : ∃ g, f = g + 1 := ⟨f - 1, by omega⟩
      have others := ih next g (fun f less => reads f (by omega)) (by omega)
      rw [compactMembers_cons, quote_append, readMembers?]
      simp [skipGap_cons, isGap, Text.after?, keyRead, text, valueRead, others]

theorem ofMembers_map (members : List (Text × Json)) :
    ofMembers (members.map fun m => (some m.1, m.2)) = object members := by
  have keys : (members.map fun m => (some m.1, m.2)).mapM
      (fun (m : Option Text × Json) => m.1.map (·, m.2)) = some members := by
    induction members with
    | nil => rfl
    | cons m ms ih => simp [ih]
  simp only [ofMembers, keys]

/-! ### Values -/

theorem readValue?_null (f : Nat) (rest : Text) :
    readValue? (f + 1) (compact null ++ rest) = some (null, rest) := by
  rw [readValue?]
  rfl

theorem readValue?_bool (f : Nat) (b : Bool) (rest : Text) :
    readValue? (f + 1) (compact (bool b) ++ rest) = some (bool b, rest) := by
  rw [readValue?]
  cases b <;> rfl

theorem readValue?_unpaired (f : Nat) (rest : Text) :
    readValue? (f + 1) (compact unpaired ++ rest) = some (unpaired, rest) := by
  rw [readValue?]
  rfl

theorem readValue?_string (f : Nat) (s rest : Text) :
    readValue? (f + 1) (compact (string s) ++ rest) = some (string s, rest) := by
  obtain ⟨parts, read, text⟩ := exists_parts s
  have written : compact (string s) ++ rest = '"' :: (s.flatMap escape ++ '"' :: rest) :=
    quote_append s rest
  have token : isGap '"' = false := rfl
  rw [written, readValue?, skipGap_cons token]
  simp only [read, text, Option.bind_eq_bind, Option.bind_some, Option.pure_def]

theorem readValue?_number (f : Nat) (n : JsonNumber) {rest : Text} (ends : EndsNumeral rest) :
    readValue? (f + 1) (compact (number n) ++ rest) = some (number n, rest) := by
  have read := number?_numeral n ends
  obtain ⟨c, s, written, token, mark⟩ := exists_numeral_eq_cons n
  simp only [marks, List.mem_cons, not_or] at mark
  obtain ⟨quote, bracket, brace, n, t, f, -⟩ := mark
  have null : Text.after? "null" (c :: (s ++ rest)) = none := if_neg (Ne.symm n)
  have true : Text.after? "true" (c :: (s ++ rest)) = none := if_neg (Ne.symm t)
  have false : Text.after? "false" (c :: (s ++ rest)) = none := if_neg (Ne.symm f)
  change readValue? _ (numeral _ ++ rest) = _
  rw [written, List.cons_append] at read ⊢
  rw [readValue?, skipGap_cons token]
  -- the first character is none that starts another value
  split
  · simp_all
  · simp_all
  · simp_all
  · rw [null, true, false, read]
    rfl

theorem readValue?_array {f : Nat} (reads : ∀ g < f, ReadsBack g) (items : List Json)
    (rest : Text) (room : (compact (array items)).length < f + 1) :
    readValue? (f + 1) (compact (array items) ++ rest) = some (array items, rest) := by
  cases items with
  | nil =>
      rw [readValue?]
      rfl
  | cons item items =>
      have written : compact (array (item :: items)) ++ rest =
          '[' :: (compactItems (item :: items) ++ ']' :: rest) := by
        rw [compact]
        simp
      rw [compact] at room
      simp only [List.cons_append, List.length_cons, List.length_append, List.length_nil] at room
      have read := readItems?_compactItems reads item items rest (by omega)
      obtain ⟨c, s, first, token, close⟩ := exists_compactItems_eq_cons item items
      have bracket : isGap '[' = false := rfl
      rw [first, List.cons_append] at read
      rw [written, first, List.cons_append, readValue?, skipGap_cons bracket]
      simp only [skipGap_cons token]
      split
      · rename_i closed
        exact absurd (List.cons.inj closed).1 close
      · rw [read]
        rfl

theorem readValue?_object {f : Nat} (reads : ∀ g < f, ReadsBack g) (members : List (Text × Json))
    (rest : Text) (room : (compact (object members)).length < f + 1) :
    readValue? (f + 1) (compact (object members) ++ rest) = some (object members, rest) := by
  cases members with
  | nil =>
      rw [readValue?]
      rfl
  | cons member members =>
      have written : compact (object (member :: members)) ++ rest =
          '{' :: (compactMembers (member :: members) ++ '}' :: rest) := by
        rw [compact]
        simp
      rw [compact] at room
      simp only [List.cons_append, List.length_cons, List.length_append, List.length_nil] at room
      have read := readMembers?_compactMembers reads member members rest (by omega)
      obtain ⟨s, first⟩ := exists_compactMembers_eq_cons member members
      have brace : isGap '{' = false := rfl
      have quote : isGap '"' = false := rfl
      rw [first, List.cons_append] at read
      rw [written, first, List.cons_append, readValue?, skipGap_cons brace]
      simp only [skipGap_cons quote]
      change (readMembers? f ('"' :: (s ++ '}' :: rest))).map _ = _
      rw [read, Option.map_some, ofMembers_map]

theorem readsBack (fuel : Nat) : ReadsBack fuel := by
  induction fuel using Nat.strongRecOn with
  | ind fuel ih =>
      intro value rest room ends
      obtain ⟨f, rfl⟩ : ∃ f, fuel = f + 1 := ⟨fuel - 1, by omega⟩
      have reads : ∀ g < f, ReadsBack g := fun g less => ih g (by omega)
      cases value with
      | null => exact readValue?_null f rest
      | bool b => exact readValue?_bool f b rest
      | number n => exact readValue?_number f n ends
      | string s => exact readValue?_string f s rest
      | unpaired => exact readValue?_unpaired f rest
      | array items => exact readValue?_array reads items rest room
      | object members => exact readValue?_object reads members rest room

/-- Every value is what its compact form is read as. -/
theorem parse?_compact (value : Json) : parse? (compact value) = some value := by
  have read := readsBack ((compact value).length + 1) value [] (by omega) endsNumeral_nil
  rw [List.append_nil] at read
  rw [parse?, read]
  rfl

end Json

end LintRepair
