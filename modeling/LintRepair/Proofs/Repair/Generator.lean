import LintRepair.Proofs.Provider
import LintRepair.Proofs.Text.Blank
import LintRepair.Proofs.Text.Search
import LintRepair.Proofs.Text.Word
import LintRepair.Repair.Member

/-!
# Generators made plain functions

The repair takes the star away from the first head of a generator on the line and keeps what stands
before the keyword and what follows the blanks behind the star.  A space is left behind the keyword
unless there was no blank on either side of the star; a name that follows the star directly then
runs together with the keyword.
-/

namespace LintRepair

namespace Member

open Text

/-- Whether a character goes on with a name: a word character, a dollar sign, or the backslash of an
escape. -/
def continuesName (c : Char) : Bool := isWord c || c = '$' || c = '\\'

/-- The keyword of a function stands between two texts as a word of its own. -/
def KeywordStands (front back : Text) : Prop :=
  (∀ c ∈ front.getLast?, continuesName c = false) ∧ ∀ c ∈ back.head?, continuesName c = false

/-- What is left between the keyword and the rest, given the blanks on the sides of the star. -/
def plainGap (lead trail : Text) : Text := if lead = [] ∧ trail = [] then [] else [' ']

/-- The head of a generator function on a line: the keyword, where a word starts, and a star. -/
structure GeneratorHead (line : Text) where
  /-- Text before the keyword. -/
  front : Text
  /-- Blanks before the star. -/
  lead : Text
  /-- Blanks behind the star. -/
  trail : Text
  /-- Text behind these blanks. -/
  rest : Text
  /-- The parts are the whole line. -/
  parts : line = front ++ ("function" ++ (lead ++ '*' :: (trail ++ rest)))
  /-- No word reaches up to the keyword. -/
  starts : wordAt front.getLast? = false
  /-- Only blanks stand before the star. -/
  lead_blank : ∀ c ∈ lead, isBlank c
  /-- Only blanks are skipped behind the star. -/
  trail_blank : ∀ c ∈ trail, isBlank c
  /-- All blanks are skipped. -/
  ends : ∀ c ∈ rest.head?, isBlank c = false

namespace GeneratorHead

variable {line : Text}

/-- No other head of a generator starts before this one. -/
def IsFirst (head : GeneratorHead line) : Prop :=
  ∀ other : GeneratorHead line, head.front.length ≤ other.front.length

/-- The line with a plain function for the generator. -/
def plain (head : GeneratorHead line) : Text :=
  head.front ++ ("function" ++ (plainGap head.lead head.trail ++ head.rest))

end GeneratorHead

theorem continuesName_of_isBlank {c : Char} (blank : isBlank c) : continuesName c = false := by
  have not_dollar : c ≠ '$' := by
    rintro rfl
    contradiction
  have not_escape : c ≠ '\\' := by
    rintro rfl
    contradiction
  simp [continuesName, isWord_of_isBlank blank, not_dollar, not_escape]

section Recogniser

variable {before s value lead trail rest : Text}

theorem isBoundary_function : isBoundary before.head? ("function" ++ rest) ↔
    wordAt before.head? = false := by
  have first : wordAt ("function" ++ rest : Text).head? = true := by
    change wordAt (some 'f') = true
    decide
  rw [isBoundary, first]
  simp

theorem keyword_eq (lead trail : Text) :
    (if lead.isEmpty && trail.isEmpty then "function" else "function " : Text) =
      "function" ++ plainGap lead trail := by
  cases lead <;> cases trail <;> rfl

/-- The keyword, blanks, a star and all blanks behind it are recognised. -/
theorem generatorHead_append (starts : wordAt before.head? = false)
    (lead_blank : ∀ c ∈ lead, isBlank c) (trail_blank : ∀ c ∈ trail, isBlank c)
    (ends : ∀ c ∈ rest.head?, isBlank c = false) :
    generatorHead before ("function" ++ (lead ++ '*' :: (trail ++ rest))) =
      some ("function" ++ plainGap lead trail, rest) := by
  obtain ⟨unindented, untrimmed⟩ := indentation_eq_nil ends
  have word_found : afterWordStart? "function" before
      ("function" ++ (lead ++ '*' :: (trail ++ rest))) = some (lead ++ '*' :: (trail ++ rest)) :=
    afterWordStart?_eq_some_iff.mpr ⟨isBoundary_function.mpr starts, rfl⟩
  have star_found : after? "*" (trimStart (lead ++ '*' :: (trail ++ rest))) =
      some (trail ++ rest) := by
    rw [trimStart_append_cons lead_blank (by decide)]
    rfl
  simp only [generatorHead, word_found, star_found, Option.bind_eq_bind, Option.bind_some]
  rw [indentation_append_cons lead_blank (by decide), indentation_append trail_blank, unindented,
    trimStart_append trail_blank, untrimmed, List.append_nil, keyword_eq]
  rfl

theorem exists_of_generatorHead (recognised : generatorHead before s = some (value, rest)) :
    wordAt before.head? = false ∧ (∀ c ∈ rest.head?, isBlank c = false) ∧
      ∃ lead trail, s = "function" ++ (lead ++ '*' :: (trail ++ rest)) ∧
        (∀ c ∈ lead, isBlank c) ∧ (∀ c ∈ trail, isBlank c) ∧
        value = "function" ++ plainGap lead trail := by
  simp only [generatorHead, Option.bind_eq_bind, Option.bind_eq_some_iff, after?_eq_some_iff,
    afterWordStart?_eq_some_iff, keyword_eq] at recognised
  obtain ⟨gap, ⟨boundary, rfl⟩, behind, star, same⟩ := recognised
  obtain ⟨rfl, rfl⟩ := Prod.mk.inj (Option.some.inj same)
  refine ⟨isBoundary_function.mp boundary, fun c head => refused_of_mem_dropWhile head,
    indentation gap, indentation behind, ?_, fun _ => blank_of_mem_indentation,
    fun _ => blank_of_mem_indentation, rfl⟩
  have gap_eq : gap = indentation gap ++ '*' :: behind := by
    calc
      gap = indentation gap ++ trimStart gap := (indentation_append_trimStart gap).symm
      _ = indentation gap ++ '*' :: behind := by
        rw [star]
        rfl
  rw [indentation_append_trimStart]
  exact congrArg (("function" : Text) ++ ·) gap_eq

end Recogniser

namespace GeneratorHead

variable {line : Text}

theorem recognised (head : GeneratorHead line) :
    generatorHead (head.front.reverse ++ [])
      ("function" ++ (head.lead ++ '*' :: (head.trail ++ head.rest))) =
      some ("function" ++ plainGap head.lead head.trail, head.rest) := by
  refine generatorHead_append ?_ head.lead_blank head.trail_blank head.ends
  rw [List.append_nil, List.head?_reverse]
  exact head.starts

/-- Where a head is recognised, the line has one. -/
theorem exists_of_recognised {front behind value rest : Text} (line_eq : line = front ++ behind)
    (found : generatorHead (front.reverse ++ []) behind = some (value, rest)) :
    ∃ head : GeneratorHead line, head.front = front ∧ head.rest = rest ∧
      value = "function" ++ plainGap head.lead head.trail := by
  obtain ⟨starts, ends, lead, trail, rfl, lead_blank, trail_blank, rfl⟩ :=
    exists_of_generatorHead found
  rw [List.append_nil, List.head?_reverse] at starts
  exact ⟨⟨front, lead, trail, rest, line_eq, starts, lead_blank, trail_blank, ends⟩, rfl, rfl, rfl⟩

theorem isSome_find?_iff : (find? generatorHead line).isSome ↔ Nonempty (GeneratorHead line) := by
  constructor
  · intro found
    obtain ⟨found, searched⟩ := Option.isSome_iff_exists.mp found
    obtain ⟨behind, line_eq, here, -⟩ := exists_of_search searched
    obtain ⟨head, -⟩ := exists_of_recognised line_eq here
    exact ⟨head⟩
  · rintro ⟨head⟩
    have parts := head.parts
    have here := Option.isSome_of_eq_some head.recognised
    rw [find?, parts]
    exact isSome_search_append here

/-- The search finds the first head. -/
theorem exists_isFirst {found : Found Text} (searched : find? generatorHead line = some found) :
    ∃ head : GeneratorHead line, head.IsFirst ∧
      found.before ++ found.value ++ found.rest = head.plain := by
  obtain ⟨behind, line_eq, here, refused⟩ := exists_of_search searched
  obtain ⟨head, front_eq, rest_eq, value_eq⟩ := exists_of_recognised line_eq here
  refine ⟨head, fun other => ?_, ?_⟩
  · refine Nat.le_of_not_lt fun earlier => ?_
    have none_there := refused other.front _ other.parts (front_eq ▸ earlier)
    rw [other.recognised] at none_there
    exact absurd none_there (Option.some_ne_none _)
  · rw [plain, front_eq, rest_eq, value_eq]
    simp only [List.append_assoc]

/-- The keyword of a head stays a word of its own unless a name follows a star without blanks. -/
theorem keywordStands_iff (head : GeneratorHead line) :
    KeywordStands head.front (plainGap head.lead head.trail ++ head.rest) ↔
      KeywordStands head.front (head.lead ++ '*' :: (head.trail ++ head.rest)) ∧
        (head.lead = [] → head.trail = [] → ∀ c ∈ head.rest.head?, continuesName c = false) := by
  have star_ends : ∀ c ∈ (head.lead ++ '*' :: (head.trail ++ head.rest)).head?,
      continuesName c = false := by
    cases lead_eq : head.lead with
    | nil => simpa using (by decide : continuesName '*' = false)
    | cons c lead =>
        have c_blank := head.lead_blank c (lead_eq ▸ List.mem_cons_self)
        simpa using continuesName_of_isBlank c_blank
  rw [KeywordStands, KeywordStands, and_iff_left star_ends]
  by_cases tight : head.lead = [] ∧ head.trail = []
  · rw [plainGap, if_pos tight, List.nil_append]
    exact and_congr_right fun _ => ⟨fun ends _ _ => ends, fun ends => ends tight.1 tight.2⟩
  · have space_ends : ∀ c ∈ ([' '] ++ head.rest).head?, continuesName c = false := by
      simpa using (by decide : continuesName ' ' = false)
    rw [plainGap, if_neg tight]
    exact and_congr_right fun _ =>
      ⟨fun _ no_lead no_trail => absurd ⟨no_lead, no_trail⟩ tight, fun _ => space_ends⟩

end GeneratorHead

end Member

namespace Repair

open Text Member

/-- A generator is made a plain function exactly if the line has the head of one.  The first such
head loses its star and the blanks around it, for which a space is left unless there were none;
nothing else changes.  The keyword is then still a word of its own exactly if it was one and no name
follows a star with no blanks around it. -/
theorem star_removed_from_first_head (site : Site) :
    ((needlessGenerator site).isSome ↔ Nonempty (GeneratorHead site.lineText)) ∧
    ∀ fix, needlessGenerator site = some fix →
      ∃ head : GeneratorHead site.lineText, head.IsFirst ∧
        fix = site.replaceLine "Remove `*` from the function"
          (head.front ++ ("function" ++ (plainGap head.lead head.trail ++ head.rest))) ∧
        (KeywordStands head.front (plainGap head.lead head.trail ++ head.rest) ↔
          KeywordStands head.front (head.lead ++ '*' :: (head.trail ++ head.rest)) ∧
            (head.lead = [] → head.trail = [] →
              ∀ c ∈ head.rest.head?, continuesName c = false)) := by
  constructor
  · rw [← GeneratorHead.isSome_find?_iff, needlessGenerator, replaceFirst?]
    cases find? generatorHead site.lineText <;> simp
  · intro fix offered
    simp only [needlessGenerator, replaceFirst?, Option.bind_eq_bind, Option.bind_eq_some_iff,
      Option.map_eq_some_iff] at offered
    obtain ⟨_, ⟨found, searched, rfl⟩, same⟩ := offered
    obtain ⟨head, first, plain_eq⟩ := GeneratorHead.exists_isFirst searched
    rw [plain_eq] at same
    exact ⟨head, first, (Option.some.inj same).symm, head.keywordStands_iff⟩

/-- A report about the first line of a text. -/
def generatorSite (text : Text) : Site := .reporting "require-yield" text (.onLine 0 0 1)

/-- A multiplication of a name that ends like the keyword, before the head of a generator. -/
def scaledGenerator : Text := "f(myfunction * a, async function\t* gen() \x7b\x7d);"

theorem star_removed_behind_multiplication :
    needlessGenerator (generatorSite scaledGenerator) =
      some ((generatorSite scaledGenerator).replaceLine "Remove `*` from the function"
        "f(myfunction * a, async function gen() \x7b\x7d);") ∧
    ∃ head : GeneratorHead (generatorSite scaledGenerator).lineText, head.IsFirst ∧
      head.plain = "f(myfunction * a, async function gen() \x7b\x7d);" := by
  have offered : needlessGenerator (generatorSite scaledGenerator) =
      some ((generatorSite scaledGenerator).replaceLine "Remove `*` from the function"
        "f(myfunction * a, async function gen() \x7b\x7d);") := by decide +kernel
  obtain ⟨head, first, same, -⟩ :=
    (star_removed_from_first_head (generatorSite scaledGenerator)).2 _ offered
  exact ⟨offered, head, first, (Site.replaceLine_inj.mp same).symm⟩

/-- The name behind the star runs together with the keyword. -/
theorem name_fused_with_keyword :
    needlessGenerator (generatorSite "function*gen() \x7b\x7d") =
      some ((generatorSite "function*gen() \x7b\x7d").replaceLine
        "Remove `*` from the function" "functiongen() \x7b\x7d") ∧
    (∃ head : GeneratorHead "function*gen() \x7b\x7d", head.IsFirst ∧ head.front = [] ∧
      head.rest = "gen() \x7b\x7d" ∧ head.plain = "functiongen() \x7b\x7d") ∧
    ¬ KeywordStands [] "gen() \x7b\x7d" := by
  let head : GeneratorHead "function*gen() \x7b\x7d" :=
    { front := [], lead := [], trail := [], rest := "gen() \x7b\x7d", parts := rfl, starts := rfl,
      lead_blank := List.forall_mem_nil _, trail_blank := List.forall_mem_nil _,
      ends := fun c first => Option.some.inj first ▸ by decide }
  refine ⟨by decide +kernel, ⟨head, fun other => Nat.zero_le _, rfl, rfl, rfl⟩, ?_⟩
  rintro ⟨-, ends⟩
  exact absurd (ends 'g' rfl) (by decide)

end Repair

end LintRepair
