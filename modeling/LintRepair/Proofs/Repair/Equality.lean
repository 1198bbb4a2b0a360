import LintRepair.Proofs.Text.Piece
import LintRepair.Repair.Equality

/-!
# Loose operators made strict

A quote scanner tells where a text is outside its string literals.  There a loose operator stands
wherever the character in front of it and the one behind it do not make it part of a longer one.
The repair of one operator puts `=` behind each of its occurrences and changes nothing else.  None
of them is left, and those of the other operator stay where they are.
-/

namespace LintRepair

namespace Equality

open Text

theorem not_isQuote {c : Char} (joins : joinsOperator c) : Nesting.isQuote c = false := by
  simp only [joinsOperator, Bool.or_eq_true, decide_eq_true_eq] at joins
  rcases joins with ((rfl | rfl) | rfl) | rfl <;> decide

/-- What a quote scanner knows behind a text. -/
structure Quoting where
  /-- Quote that closes the string literal the text ends in. -/
  quote : Option Char
  /-- Whether a backslash in that literal takes the next character along. -/
  escaped : Bool
  deriving DecidableEq

namespace Quoting

/-- Outside all string literals. -/
def outside : Quoting := ⟨none, false⟩

/-- What is known after one more character. -/
def step (state : Quoting) (c : Char) : Quoting :=
  match state.quote with
  | none => if Nesting.isQuote c then ⟨some c, false⟩ else outside
  | some quote =>
      if state.escaped then ⟨some quote, false⟩
      else if c = '\\' then ⟨some quote, true⟩
      else if c = quote then outside
      else ⟨some quote, false⟩

/-- What is known behind a text. -/
def after (s : Text) : Quoting := s.foldl step outside

@[simp]
theorem after_append_singleton (s : Text) (c : Char) : after (s ++ [c]) = (after s).step c := by
  simp [after]

theorem step_of_unquoted {state : Quoting} (unquoted : state.quote = none) {c : Char}
    (plain : Nesting.isQuote c = false) : state.step c = outside := by
  simp [step, unquoted, plain]

/-- Behind an operator outside string literals nothing is open. -/
theorem after_append_operator {first : Char} (joins : joinsOperator first) {front : Text}
    (unquoted : (after front).quote = none) : after (front ++ [first, '=']) = outside := by
  have behind_first : after (front ++ [first]) = outside := by
    rw [after_append_singleton, step_of_unquoted unquoted (not_isQuote joins)]
  rw [List.append_cons, after_append_singleton, behind_first]
  exact step_of_unquoted rfl (by decide)

end Quoting

/-- An operator between two texts is loose: it is outside string literals and not part of a longer
operator. -/
def StandsLoose (front back : Text) : Prop :=
  (Quoting.after front).quote = none ∧ front.getLast?.any joinsOperator = false ∧
    back.head? ≠ some '='

instance (front back : Text) : Decidable (StandsLoose front back) :=
  inferInstanceAs (Decidable (_ ∧ _ ∧ _))

/-- A loose operator starts at a place, given by the text in front of it and the text from it on. -/
def StartsLoose (first : Char) (front s : Text) : Prop :=
  ∃ back, s = first :: '=' :: back ∧ StandsLoose front back

/-- A loose operator ends at a place, given by the texts around it. -/
def EndsLoose (first : Char) (front back : Text) : Prop :=
  ∃ lead, front = lead ++ [first, '='] ∧ StandsLoose lead back

instance (first : Char) (front s : Text) : Decidable (StartsLoose first front s) :=
  decidable_of_iff ((after? [first, '='] s).any fun back => StandsLoose front back) (by
    simp [StartsLoose, Option.any_eq_true, after?_eq_some_iff])

instance (first : Char) (front back : Text) : Decidable (EndsLoose first front back) :=
  decidable_of_iff ((before? [first, '='] front).any fun lead => StandsLoose lead back) (by
    simp [EndsLoose, Option.any_eq_true, before?_eq_some_iff])

/-- The texts in front of the loose operators that start at a place or behind it. -/
def looseFrontsFrom (first : Char) (front : Text) : Text → List Text
  | [] => []
  | c :: s =>
      if StartsLoose first front (c :: s) then front :: looseFrontsFrom first (front ++ [c]) s
      else looseFrontsFrom first (front ++ [c]) s

/-- The texts in front of the loose operators, from left to right. -/
def looseFronts (first : Char) (s : Text) : List Text := looseFrontsFrom first [] s

/-- What follows a place, with `=` behind each loose operator that ends there. -/
def strictenedFrom (first : Char) (front : Text) : Text → Text
  | [] => []
  | c :: s =>
      if EndsLoose first (front ++ [c]) s then c :: '=' :: strictenedFrom first (front ++ [c]) s
      else c :: strictenedFrom first (front ++ [c]) s

/-- The text with `=` behind each loose operator. -/
def strictened (first : Char) (s : Text) : Text := strictenedFrom first [] s

/-- The characters of string literals that follow a place, quotes included. -/
def literalsFrom (front : Text) : Text → Text
  | [] => []
  | c :: s =>
      if (Quoting.after front).quote.isSome || Nesting.isQuote c then
        c :: literalsFrom (front ++ [c]) s
      else literalsFrom (front ++ [c]) s

/-- The characters of the string literals of a text, quotes included. -/
def literals (s : Text) : Text := literalsFrom [] s

theorem mem_looseFrontsFrom_iff {first : Char} {front s lead : Text} :
    lead ∈ looseFrontsFrom first front s ↔
      ∃ piece behind, lead = front ++ piece ∧ s = piece ++ behind ∧
        StartsLoose first lead behind := by
  induction s generalizing front with
  | nil =>
      refine iff_of_false List.not_mem_nil ?_
      rintro ⟨piece, behind, -, parts, back, rfl, -⟩
      simp at parts
  | cons c s ih =>
      have here_or_later : lead ∈ looseFrontsFrom first front (c :: s) ↔
          lead = front ∧ StartsLoose first front (c :: s) ∨
            lead ∈ looseFrontsFrom first (front ++ [c]) s := by
        rw [looseFrontsFrom]
        split <;> simp [*]
      rw [here_or_later, ih]
      constructor
      · rintro (⟨rfl, loose⟩ | ⟨piece, behind, rfl, rfl, loose⟩)
        · exact ⟨[], c :: s, (List.append_nil _).symm, rfl, loose⟩
        · exact ⟨c :: piece, behind, by simp, rfl, loose⟩
      · rintro ⟨_ | ⟨d, piece⟩, behind, rfl, parts, loose⟩
        · rw [List.append_nil] at loose ⊢
          exact .inl ⟨rfl, parts ▸ loose⟩
        · obtain ⟨rfl, rfl⟩ := List.cons.inj parts
          exact .inr ⟨piece, behind, by simp, rfl, loose⟩

theorem mem_looseFronts_iff {first : Char} {s lead : Text} :
    lead ∈ looseFronts first s ↔
      ∃ back, s = lead ++ first :: '=' :: back ∧ StandsLoose lead back := by
  rw [looseFronts, mem_looseFrontsFrom_iff]
  constructor
  · rintro ⟨piece, behind, rfl, rfl, back, rfl, loose⟩
    exact ⟨back, rfl, loose⟩
  · rintro ⟨back, rfl, loose⟩
    exact ⟨lead, _, rfl, rfl, back, rfl, loose⟩

/-- No loose operator ends with the first character of a text. -/
def Apart (first : Char) (front s : Text) : Prop :=
  ∀ c rest, s = c :: rest → ¬ EndsLoose first (front ++ [c]) rest

section Places

variable {first other c : Char} {front s back : Text}

theorem startsLoose_cons_iff :
    StartsLoose first front (c :: s) ↔
      c = first ∧ ∃ back, s = '=' :: back ∧ StandsLoose front back := by
  simp only [StartsLoose, List.cons.injEq]
  constructor
  · rintro ⟨back, ⟨rfl, rfl⟩, loose⟩
    exact ⟨rfl, back, rfl, loose⟩
  · rintro ⟨rfl, back, rfl, loose⟩
    exact ⟨back, ⟨rfl, rfl⟩, loose⟩

/-- An operator ends with a second character exactly if it starts one character before. -/
theorem endsLoose_append_pair_iff {d : Char} :
    EndsLoose first (front ++ [c] ++ [d]) back ↔ StartsLoose first front (c :: d :: back) := by
  rw [startsLoose_cons_iff]
  constructor
  · rintro ⟨lead, parts, loose⟩
    obtain ⟨rfl, pair⟩ : front = lead ∧ [c, d] = [first, '='] := by
      refine List.append_inj' (by simpa using parts) rfl
    simp only [List.cons.injEq, and_true] at pair
    obtain ⟨rfl, rfl⟩ := pair
    exact ⟨rfl, back, rfl, loose⟩
  · rintro ⟨rfl, _, rest_eq, loose⟩
    obtain ⟨rfl, rfl⟩ := List.cons.inj rest_eq
    exact ⟨front, by simp, loose⟩

theorem apart_nil (s : Text) : Apart first [] s := by
  rintro c rest - ⟨lead, parts, -⟩
  simpa using congrArg List.length parts

theorem Apart.of_not_startsLoose (later : ¬ StartsLoose first front (c :: s)) :
    Apart first (front ++ [c]) s := by
  rintro d rest rfl ends
  exact later (endsLoose_append_pair_iff.mp ends)

theorem StandsLoose.apart (loose : StandsLoose front back) :
    Apart first (front ++ [first, '=']) back := by
  rintro c rest rfl ⟨lead, parts, -⟩
  have c_eq : c = '=' := by simpa using congrArg List.getLast? parts
  exact loose.2.2 (by simp [c_eq])

end Places

section Scan

variable {first : Char} (joins : joinsOperator first)

include joins

/-- Behind the first character of an operator no other one starts. -/
theorem not_standsLoose_behind (front back : Text) : ¬ StandsLoose (front ++ [first]) back := by
  rintro ⟨-, free, -⟩
  simp [joins] at free

theorem not_startsLoose_behind (other : Char) (front s : Text) :
    ¬ StartsLoose other (front ++ [first]) s := by
  rintro ⟨back, -, loose⟩
  exact not_standsLoose_behind joins front back loose

/-- Induction over the text by its loose operators: a character that starts none is passed over
alone, a loose operator as a whole. -/
@[elab_as_elim]
theorem scan_induction {motive : Text → Text → Prop} (nil : ∀ front, motive front [])
    (plain : ∀ front c s, ¬ StartsLoose first front (c :: s) → Apart first front (c :: s) →
      motive (front ++ [c]) s → motive front (c :: s))
    (loose : ∀ front s, StandsLoose front s → motive (front ++ [first, '=']) s →
      motive front (first :: '=' :: s))
    {front s : Text} (apart : Apart first front s) : motive front s := by
  induction length_eq : s.length using Nat.strongRecOn generalizing front s with
  | ind length ih =>
    subst length_eq
    cases s with
    | nil => exact nil front
    | cons c s =>
        by_cases starts : StartsLoose first front (c :: s)
        · obtain ⟨rfl, back, rfl, standing⟩ := startsLoose_cons_iff.mp starts
          have shorter : back.length < (c :: '=' :: back).length := by
            simp only [List.length_cons]
            omega
          exact loose front back standing (ih back.length shorter standing.apart rfl)
        · exact plain front c s starts apart
            (ih s.length (by simp) (.of_not_startsLoose starts) rfl)

theorem looseFrontsFrom_loose {other : Char} {front s : Text} (starts : StandsLoose front s) :
    looseFrontsFrom other front (first :: '=' :: s) =
      if first = other then front :: looseFrontsFrom other (front ++ [first, '=']) s
      else looseFrontsFrom other (front ++ [first, '=']) s := by
  have here : StartsLoose other front (first :: '=' :: s) ↔ first = other := by
    rw [startsLoose_cons_iff]
    exact and_iff_left ⟨s, rfl, starts⟩
  simp [looseFrontsFrom, here, not_startsLoose_behind joins]

end Scan

section Plain

variable {first c : Char} {front s : Text}

theorem strictenedFrom_plain (apart : Apart first front (c :: s)) :
    strictenedFrom first front (c :: s) = c :: strictenedFrom first (front ++ [c]) s := by
  rw [strictenedFrom, if_neg (apart c s rfl)]

theorem strictenedFrom_loose (starts : StandsLoose front s) :
    strictenedFrom first front (first :: '=' :: s) =
      first :: '=' :: '=' :: strictenedFrom first (front ++ [first, '=']) s := by
  have continues : ¬ EndsLoose first (front ++ [first]) ('=' :: s) := by
    rintro ⟨lead, -, loose⟩
    exact loose.2.2 rfl
  have ends : EndsLoose first (front ++ [first] ++ ['=']) s := ⟨front, by simp, starts⟩
  rw [strictenedFrom, if_neg continues, strictenedFrom, if_pos ends]
  simp

theorem looseFrontsFrom_plain (passes : ¬ StartsLoose first front (c :: s)) :
    looseFrontsFrom first front (c :: s) = looseFrontsFrom first (front ++ [c]) s := by
  rw [looseFrontsFrom, if_neg passes]

theorem not_startsLoose_of_quoted {other : Char}
    (quoted : (Quoting.after front).quote.isSome) : ¬ StartsLoose other front s := by
  rintro ⟨back, -, outside, -⟩
  simp [outside] at quoted

theorem head?_strictenedFrom : (strictenedFrom first front s).head? = s.head? := by
  cases s with
  | nil => rfl
  | cons c s => rw [strictenedFrom]; split <;> rfl

end Plain

/-- What stands in front of a place where an operator may be loose is made strict on its own. -/
theorem strictenedFrom_append {front s behind : Text}
    (free : s.getLast?.any joinsOperator = false) :
    strictenedFrom first front (s ++ behind) =
      strictenedFrom first front s ++ strictenedFrom first (front ++ s) behind := by
  induction s generalizing front with
  | nil => simp [strictenedFrom]
  | cons c s ih =>
      have same_end : EndsLoose first (front ++ [c]) (s ++ behind) ↔
          EndsLoose first (front ++ [c]) s := by
        cases s with
        | cons d s => simp [EndsLoose, StandsLoose]
        | nil =>
            have not_here (back : Text) : ¬ EndsLoose first (front ++ [c]) back := by
              rintro ⟨lead, parts, -⟩
              have c_eq : c = '=' := by simpa using congrArg List.getLast? parts
              subst c_eq
              contradiction
            exact iff_of_false (not_here _) (not_here _)
      have later_free : s.getLast?.any joinsOperator = false := by
        cases s with
        | nil => rfl
        | cons d s => simpa using free
      rw [List.cons_append, strictenedFrom, strictenedFrom]
      simp only [same_end, ih later_free]
      split <;> simp

/-- The pieces of what follows a place, cut at its loose operators. -/
structure AreCut (first : Char) (front s : Text) (pieces : List Text) : Prop where
  joined_eq : joined [first, '=', '='] pieces = strictenedFrom first front s
  length_eq : pieces.length = (looseFrontsFrom first front s).length + 1

namespace AreCut

variable {first c : Char} {front s : Text} {pieces : List Text}

theorem pushFirst (cut : AreCut first (front ++ [c]) s pieces)
    (passes : ¬ StartsLoose first front (c :: s)) (apart : Apart first front (c :: s)) :
    AreCut first front (c :: s) (pushFirst c pieces) where
  joined_eq := by rw [joined_pushFirst, cut.joined_eq, strictenedFrom_plain apart]
  length_eq := by
    obtain ⟨piece, later, rfl⟩ := List.exists_cons_of_length_eq_add_one cut.length_eq
    rw [looseFrontsFrom_plain passes, ← cut.length_eq]
    rfl

theorem nil_cons (cut : AreCut first (front ++ [first, '=']) s pieces)
    (joins : joinsOperator first) (starts : StandsLoose front s) :
    AreCut first front (first :: '=' :: s) ([] :: pieces) where
  joined_eq := by
    obtain ⟨piece, later, rfl⟩ := List.exists_cons_of_length_eq_add_one cut.length_eq
    rw [strictenedFrom_loose starts, ← cut.joined_eq]
    rfl
  length_eq := by
    rw [looseFrontsFrom_loose joins starts, if_pos rfl, List.length_cons, cut.length_eq]
    rfl

end AreCut

/-- A text is cut at its loose operators. -/
theorem areCut_piecesFrom {first : Char} (joins : joinsOperator first)
    {before quote : Option Char} {front s : Text} (before_eq : before = front.getLast?)
    (quoting : Quoting.after front = ⟨quote, false⟩) (apart : Apart first front s) :
    AreCut first front s (piecesFrom first before quote s) := by
  fun_induction piecesFrom first before quote s generalizing front with
  | case1 => exact ⟨rfl, rfl⟩
  | case2 before quote c =>
      have passes : ¬ StartsLoose first front [c] := by simp [startsLoose_cons_iff]
      exact ⟨by rw [strictenedFrom_plain apart]; rfl, by rw [looseFrontsFrom_plain passes]; rfl⟩
  | case3 before d rest quote ih =>
      -- Behind the backslash the place is still inside the literal.
      have passes : ¬ StartsLoose first front ('\\' :: d :: rest) :=
        not_startsLoose_of_quoted (by rw [quoting]; rfl)
      have escaping : Quoting.after (front ++ ['\\']) = ⟨some quote, true⟩ := by
        simp [quoting, Quoting.step]
      have later_passes : ¬ StartsLoose first (front ++ ['\\']) (d :: rest) :=
        not_startsLoose_of_quoted (by rw [escaping]; rfl)
      have later_apart := Apart.of_not_startsLoose passes
      refine .pushFirst (.pushFirst (ih (by simp) ?_ (.of_not_startsLoose later_passes))
        later_passes later_apart) passes apart
      rw [Quoting.after_append_singleton, escaping]
      rfl
  | case4 before c d rest quote unescaped ih =>
      have passes : ¬ StartsLoose first front (c :: d :: rest) :=
        not_startsLoose_of_quoted (by rw [quoting]; rfl)
      refine .pushFirst (ih (by simp) ?_ (.of_not_startsLoose passes)) passes apart
      rw [Quoting.after_append_singleton, quoting]
      simp only [Quoting.step, Bool.false_eq_true, if_false, if_neg unescaped]
      split <;> rfl
  | case5 before c d rest opens ih =>
      have passes : ¬ StartsLoose first front (c :: d :: rest) := by
        rintro starts
        obtain ⟨rfl, -⟩ := startsLoose_cons_iff.mp starts
        simp [not_isQuote joins] at opens
      refine .pushFirst (ih (by simp) ?_ (.of_not_startsLoose passes)) passes apart
      simp [quoting, Quoting.step, opens]
  | case6 before c d rest plain here ih =>
      simp only [Bool.and_eq_true, decide_eq_true_eq, Bool.not_eq_true', bne_iff_ne] at here
      obtain ⟨⟨⟨rfl, rfl⟩, free⟩, ends⟩ := here
      have starts : StandsLoose front rest := ⟨by rw [quoting], before_eq ▸ free, ends⟩
      refine .nil_cons (ih (by simp) ?_ starts.apart) joins starts
      exact Quoting.after_append_operator joins (by rw [quoting])
  | case7 before c d rest plain here ih =>
      have passes : ¬ StartsLoose first front (c :: d :: rest) := by
        rintro starts
        obtain ⟨rfl, back, rest_eq, -, free, ends⟩ := startsLoose_cons_iff.mp starts
        obtain ⟨rfl, rfl⟩ := List.cons.inj rest_eq
        exact here (by simp [before_eq, free, ends])
      refine .pushFirst (ih (by simp) ?_ (.of_not_startsLoose passes)) passes apart
      simp [quoting, Quoting.step, plain, Quoting.outside]

theorem strict?_eq {first : Char} (joins : joinsOperator first) (s : Text) :
    strict? first s = if looseFronts first s = [] then none else some (strictened first s) := by
  obtain ⟨joined_eq, length_eq⟩ : AreCut first [] s (piecesFrom first none none s) :=
    areCut_piecesFrom joins rfl rfl (apart_nil s)
  have alone : (pieces first s).length ≤ 1 ↔ looseFronts first s = [] := by
    rw [pieces, length_eq, ← List.length_eq_zero_iff, looseFronts]
    omega
  simp only [strict?, alone]
  rw [pieces, joined_eq]
  rfl

/-- Two texts look alike to what follows them: neither decides differently whether an operator
behind it is loose. -/
structure LookAlike (front out : Text) : Prop where
  quoting : Quoting.after front = Quoting.after out
  joining : front.getLast?.any joinsOperator = out.getLast?.any joinsOperator

namespace LookAlike

variable {first c : Char} {front out s : Text}

theorem append (alike : LookAlike front out) (c : Char) : LookAlike (front ++ [c]) (out ++ [c]) :=
  ⟨by simp [alike.quoting], by simp⟩

theorem standsLoose_iff (alike : LookAlike front out) :
    StandsLoose front s ↔ StandsLoose out s := by
  rw [StandsLoose, StandsLoose, alike.quoting, alike.joining]

theorem operator (alike : LookAlike front out) (joins : joinsOperator first)
    (starts : StandsLoose front s) :
    LookAlike (front ++ [first, '=']) (out ++ [first, '='] ++ ['=']) where
  quoting := by
    have out_starts := alike.standsLoose_iff.mp starts
    rw [Quoting.after_append_singleton, Quoting.after_append_operator joins starts.1,
      Quoting.after_append_operator joins out_starts.1]
    rfl
  joining := by simp

/-- An operator behind a character that is kept is as loose as it was. -/
theorem startsLoose_iff (other : Char) (alike : LookAlike front out)
    (apart : Apart first (front ++ [c]) s) :
    StartsLoose other out (c :: strictenedFrom first (front ++ [c]) s) ↔
      StartsLoose other front (c :: s) := by
  rw [startsLoose_cons_iff, startsLoose_cons_iff]
  refine and_congr_right fun _ => ?_
  cases s with
  | nil => simp [strictenedFrom]
  | cons d s =>
      have same_next : StandsLoose out (strictenedFrom first (front ++ [c] ++ [d]) s) ↔
          StandsLoose front s := by
        rw [← alike.standsLoose_iff, StandsLoose, StandsLoose, head?_strictenedFrom]
      rw [strictenedFrom_plain apart]
      simp only [List.cons.injEq]
      constructor
      · rintro ⟨_, ⟨rfl, rfl⟩, loose⟩
        exact ⟨s, ⟨rfl, rfl⟩, same_next.mp loose⟩
      · rintro ⟨_, ⟨rfl, rfl⟩, loose⟩
        exact ⟨_, ⟨rfl, rfl⟩, same_next.mpr loose⟩

end LookAlike

section Strictened

variable {first : Char} (joins : joinsOperator first)

include joins

/-- No loose operator starts inside a strict one. -/
theorem looseFrontsFrom_strict (other : Char) (out s : Text) :
    looseFrontsFrom other out (first :: '=' :: '=' :: s) =
      looseFrontsFrom other (out ++ [first, '='] ++ ['=']) s := by
  have continues : ¬ StartsLoose other out (first :: '=' :: '=' :: s) := by
    rintro ⟨back, parts, loose⟩
    simp only [List.cons.injEq, true_and] at parts
    exact loose.2.2 (by simp [← parts.2])
  have inside (behind : Text) : ¬ StartsLoose other (out ++ [first] ++ ['=']) behind :=
    not_startsLoose_behind (by decide) other (out ++ [first]) behind
  rw [looseFrontsFrom_plain continues,
    looseFrontsFrom_plain (not_startsLoose_behind joins other out _),
    looseFrontsFrom_plain (inside _)]
  simp

/-- No loose operator is left. -/
theorem looseFrontsFrom_strictenedFrom {front s : Text} (apart : Apart first front s) :
    ∀ out, LookAlike front out → looseFrontsFrom first out (strictenedFrom first front s) = [] := by
  refine scan_induction joins ?_ ?_ ?_ apart
  · intro front out _
    rfl
  · intro front c s passes apart ih out alike
    have out_passes := mt (alike.startsLoose_iff _ (.of_not_startsLoose passes)).mp passes
    rw [strictenedFrom_plain apart, looseFrontsFrom_plain out_passes, ih _ (alike.append c)]
  · intro front s starts ih out alike
    rw [strictenedFrom_loose starts, looseFrontsFrom_strict joins,
      ih _ (alike.operator joins starts)]

theorem literalsFrom_operator {front : Text} (unquoted : (Quoting.after front).quote = none)
    (s : Text) :
    literalsFrom front (first :: '=' :: s) = literalsFrom (front ++ [first, '=']) s := by
  have behind_first : Quoting.after (front ++ [first]) = Quoting.outside := by
    rw [Quoting.after_append_singleton, Quoting.step_of_unquoted unquoted (not_isQuote joins)]
  have equals_plain : Nesting.isQuote '=' = false := by decide
  simp [literalsFrom, unquoted, not_isQuote joins, behind_first, Quoting.outside, equals_plain,
    -Quoting.after_append_singleton]

/-- String literals are kept as they are. -/
theorem literalsFrom_strictenedFrom {front s : Text} (apart : Apart first front s) :
    ∀ out, LookAlike front out →
      literalsFrom out (strictenedFrom first front s) = literalsFrom front s := by
  refine scan_induction joins ?_ ?_ ?_ apart
  · intro front out _
    rfl
  · intro front c s passes apart ih out alike
    rw [strictenedFrom_plain apart, literalsFrom, literalsFrom, alike.quoting,
      ih _ (alike.append c)]
  · intro front s starts ih out alike
    have out_starts := alike.standsLoose_iff.mp starts
    have third_outside :
        literalsFrom (out ++ [first, '=']) ('=' :: strictenedFrom first (front ++ [first, '=']) s) =
          literalsFrom (out ++ [first, '='] ++ ['='])
            (strictenedFrom first (front ++ [first, '=']) s) := by
      rw [literalsFrom, Quoting.after_append_operator joins out_starts.1]
      rfl
    rw [strictenedFrom_loose starts, literalsFrom_operator joins out_starts.1, third_outside,
      ih _ (alike.operator joins starts), literalsFrom_operator joins starts.1]

/-- The loose operators of the other kind stay, each behind the text that was in front of it, made
strict. -/
theorem looseFrontsFrom_other {other : Char} (differ : first ≠ other) {front s : Text}
    (apart : Apart first front s) :
    ∀ out, LookAlike front out →
      strictened first (front ++ s) = out ++ strictenedFrom first front s →
        looseFrontsFrom other out (strictenedFrom first front s) =
          (looseFrontsFrom other front s).map (strictened first) := by
  refine scan_induction joins ?_ ?_ ?_ apart
  · intro front out _ _
    rfl
  · intro front c s passes apart ih out alike written
    have later := ih (out ++ [c]) (alike.append c) (by
      rw [strictenedFrom_plain apart] at written
      simpa using written)
    have same_start := alike.startsLoose_iff other (.of_not_startsLoose passes)
    rw [strictenedFrom_plain apart, looseFrontsFrom, looseFrontsFrom, later]
    by_cases starts : StartsLoose other front (c :: s)
    · obtain ⟨back, -, -, free, -⟩ := id starts
      have front_written : strictened first front = out := by
        rw [strictened, strictenedFrom_append free] at written
        exact List.append_cancel_right written
      rw [if_pos starts, if_pos (same_start.mpr starts), List.map_cons, front_written]
    · rw [if_neg starts, if_neg (mt same_start.mp starts)]
  · intro front s starts ih out alike written
    have later := ih _ (alike.operator joins starts) (by
      rw [strictenedFrom_loose starts] at written
      simpa using written)
    rw [strictenedFrom_loose starts, looseFrontsFrom_strict joins, later,
      looseFrontsFrom_loose joins starts, if_neg differ]

end Strictened

end Equality

namespace Repair

open Equality

/-- Title of the fix for the operators that start with a character. -/
def strictTitle (first : Char) : Text :=
  "Replace " ++ [first, '='] ++ " with " ++ [first, '=', '=']

theorem joins_of_mem : ∀ first ∈ ['=', '!'], joinsOperator first :=
  List.all_eq_true.mp (by decide)

theorem strictTitle_inj {first other : Char} :
    strictTitle first = strictTitle other ↔ first = other := by
  constructor
  · intro same
    exact (List.cons.inj (List.append_inj_right' same rfl)).1
  · rintro rfl
    rfl

theorem looseEquality_iff {site : Site} {text : Text} (covered : site.text? = some text)
    {first : Char} (operator : first ∈ ['=', '!']) {fix : Fix} :
    fix ∈ looseEquality site ∧ fix.title = strictTitle first ↔
      looseFronts first text ≠ [] ∧
        site.replaceRange (strictTitle first) (strictened first text) = fix := by
  have offered_iff : fix ∈ looseEquality site ↔ ∃ c ∈ ['=', '!'], looseFronts c text ≠ [] ∧
      site.replaceRange (strictTitle c) (strictened c text) = fix := by
    rw [looseEquality, List.mem_filterMap]
    refine exists_congr fun c => and_congr_right fun c_operator => ?_
    simp only [covered, Option.bind_eq_bind, Option.bind_some,
      strict?_eq (joins_of_mem c c_operator)]
    split
    · rename_i none_loose
      exact iff_of_false (Option.some_ne_none fix).symm fun offered => offered.1 none_loose
    · rename_i some_loose
      exact ⟨fun offered => ⟨some_loose, Option.some.inj offered⟩,
        fun offered => congrArg some offered.2⟩
  rw [offered_iff]
  constructor
  · rintro ⟨⟨c, -, some_loose, rfl⟩, titled⟩
    obtain rfl := strictTitle_inj.mp titled
    exact ⟨some_loose, rfl⟩
  · rintro ⟨some_loose, rfl⟩
    exact ⟨⟨first, operator, some_loose, rfl⟩, rfl⟩

/-- For each of the two operators a fix is offered exactly if the range text has it as a loose
operator.  The fix puts `=` behind each of them and changes nothing else, string literals in
particular.  In the new text there is none for which a fix would be offered again, and the loose
operators of the other kind are the same, each behind the text that was in front of it, with its
own operators made strict. -/
theorem loose_operators_made_strict {site : Site} {text : Text}
    (covered : site.text? = some text) {first : Char} (operator : first ∈ ['=', '!']) :
    ((∃ fix ∈ looseEquality site, fix.title = strictTitle first) ↔
      ∃ front back, text = front ++ first :: '=' :: back ∧ StandsLoose front back) ∧
    (∀ fix ∈ looseEquality site, fix.title = strictTitle first →
      fix = site.replaceRange (strictTitle first) (strictened first text)) ∧
    literals (strictened first text) = literals text ∧
    (∀ after : Site, after.text? = some (strictened first text) →
      ∀ fix ∈ looseEquality after, fix.title ≠ strictTitle first) ∧
    ∀ other ∈ ['=', '!'], first ≠ other →
      looseFronts other (strictened first text) =
        (looseFronts other text).map (strictened first) := by
  have joins := joins_of_mem first operator
  have apart : Apart first [] text := apart_nil text
  refine ⟨?_, ?_, ?_, ?_, ?_⟩
  · constructor
    · rintro ⟨fix, offered, titled⟩
      obtain ⟨some_loose, -⟩ := (looseEquality_iff covered operator).mp ⟨offered, titled⟩
      obtain ⟨front, member⟩ := List.exists_mem_of_ne_nil _ some_loose
      exact ⟨front, mem_looseFronts_iff.mp member⟩
    · rintro ⟨front, loose⟩
      have some_loose := List.ne_nil_of_mem (mem_looseFronts_iff.mpr loose)
      exact ⟨_, (looseEquality_iff covered operator).mpr ⟨some_loose, rfl⟩⟩
  · intro fix offered titled
    exact ((looseEquality_iff covered operator).mp ⟨offered, titled⟩).2.symm
  · exact literalsFrom_strictenedFrom joins apart [] ⟨rfl, rfl⟩
  · intro after after_covered fix offered titled
    refine ((looseEquality_iff after_covered operator).mp ⟨offered, titled⟩).1 ?_
    exact looseFrontsFrom_strictenedFrom joins apart [] ⟨rfl, rfl⟩
  · intro other _ differ
    exact looseFrontsFrom_other joins differ apart [] ⟨rfl, rfl⟩ rfl

/-- A report of a whole text of one line. -/
def comparisonSite (text : Text) : Site where
  diagnostic := ⟨"eqeqeq", "message", .onLine 0 0 (Text.byteSize text), .error, none, none,
    Diagnostic.lintSource⟩
  document := .ofText text
  settings := .standard

theorem comparison_behind_literal_made_strict :
    (comparisonSite "a != '\\'==' == b").text? = some ("a != '\\'==' == b" : Text) ∧
    (∃ fix ∈ looseEquality (comparisonSite "a != '\\'==' == b"), fix.title = strictTitle '=') ∧
    (∀ fix ∈ looseEquality (comparisonSite "a != '\\'==' == b"), fix.title = strictTitle '=' →
      fix = (comparisonSite "a != '\\'==' == b").replaceRange (strictTitle '=')
        "a != '\\'==' === b") ∧
    looseFronts '!' "a != '\\'==' === b" = (["a "] : List Text) := by
  have covered : (comparisonSite "a != '\\'==' == b").text? =
      some ("a != '\\'==' == b" : Text) := by decide
  obtain ⟨offers, only, -, -, others⟩ :=
    loose_operators_made_strict covered (by decide : '=' ∈ ['=', '!'])
  have kept := others '!' (by decide) (by decide)
  exact ⟨covered, offers.mpr ⟨"a != '\\'==' ", " b", by decide⟩, only, kept.trans (by decide)⟩

end Repair

end LintRepair
