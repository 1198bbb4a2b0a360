import Mathlib.Data.List.Infix
import Mathlib.Data.Option.Basic
import LintRepair.Proofs.Provider
import LintRepair.Proofs.Text.Nesting
import LintRepair.Repair.Markup

/-!
# String literals in braces

A string literal in braces is written without them: in an attribute it stays in quotes that its body
does not hold, in the content of an element the body stands alone.  Which of the two a place is, the
last `=` or `>` in the text before it tells.  Escapes mean nothing in either, yet only a template in
an attribute is left alone for its backslashes.
-/

namespace LintRepair

namespace Markup

open Text

section Context

variable {d : Document} {r : Range} {a b s : Text}

/-- The lines above a range that are searched to tell its place. -/
def linesAbove (d : Document) (r : Range) : List Text :=
  (List.range' (r.start.line - contextLines) (min r.start.line contextLines)).map fun index =>
    (d.line? index).getD []

/-- The text that is searched to tell the place of a range: some lines above it, and what stands
before it on its own. -/
def context (d : Document) (r : Range) : Text :=
  (linesAbove d r).flatMap (· ++ ['\n']) ++ d.textBefore r

/-- The last `=` or `>` of a text is `>`. -/
def EndsInContent (s : Text) : Prop :=
  ∃ front back, s = front ++ '>' :: back ∧ ∀ c ∈ back, c ≠ '=' ∧ c ≠ '>'

theorem placeAfter?_append : placeAfter? (a ++ b) = (placeAfter? b).or (placeAfter? a) := by
  rw [placeAfter?, List.reverse_append, List.find?_append]
  simp only [placeAfter?]
  cases List.find? (fun c => c = '=' || c = '>') b.reverse <;> rfl

theorem placeAfter?_flatMap (lines : List Text) :
    placeAfter? (lines.flatMap (· ++ ['\n'])) = lines.reverse.findSome? placeAfter? := by
  induction lines with
  | nil => rfl
  | cons line lines ih =>
      have newline : placeAfter? ['\n'] = none := rfl
      rw [List.flatMap_cons, placeAfter?_append, ih, placeAfter?_append, newline, Option.none_or,
        List.reverse_cons, List.findSome?_append]
      simp

theorem placeOf_eq (d : Document) (r : Range) :
    placeOf d r = (placeAfter? (context d r)).getD .attribute := by
  rw [placeOf, context, placeAfter?_append, placeAfter?_flatMap, List.findSome?_cons, linesAbove,
    List.map_reverse]
  cases placeAfter? (d.textBefore r) <;> rfl

theorem placeAfter?_eq_child_iff : placeAfter? s = some .child ↔ EndsInContent s := by
  rw [placeAfter?, Option.map_eq_some_iff]
  constructor
  · rintro ⟨c, found, is_child⟩
    obtain ⟨is_mark, back, front, parts, absent⟩ := List.find?_eq_some_iff_append.mp found
    have c_eq : c = '>' := by
      simp only [Bool.or_eq_true, decide_eq_true_eq] at is_mark
      refine is_mark.resolve_left fun equals => ?_
      rw [if_pos equals] at is_child
      contradiction
    subst c_eq
    refine ⟨front.reverse, back.reverse, ?_, by simpa using absent⟩
    simpa using congrArg List.reverse parts
  · rintro ⟨front, back, rfl, absent⟩
    refine ⟨'>', List.find?_eq_some_iff_append.mpr ⟨rfl, back.reverse, front.reverse, ?_, ?_⟩, rfl⟩
    · simp
    · simpa using absent

/-- A range stands in the content of an element exactly if the last `=` or `>` before it is `>`. -/
theorem placeOf_eq_child_iff : placeOf d r = .child ↔ EndsInContent (context d r) := by
  rw [placeOf_eq, ← placeAfter?_eq_child_iff]
  cases placeAfter? (context d r) <;> simp

end Context

/-- None of some characters stands in a text. -/
def Avoids (marks : List Char) (s : Text) : Prop := ∀ c ∈ s, c ∉ marks

instance (marks : List Char) (s : Text) : Decidable (Avoids marks s) := List.decidableBAll _ _

/-- A string literal in braces, with blanks around both. -/
structure BracedLiteral where
  /-- The blanks before the opening brace. -/
  lead : Text
  /-- The blanks before the literal. -/
  gap : Text
  /-- The quote the literal starts and ends with. -/
  quote : Char
  /-- What stands between the quotes. -/
  body : Text
  /-- The blanks behind the literal. -/
  rest : Text
  /-- The blanks behind the closing brace. -/
  trail : Text
  lead_blank : ∀ c ∈ lead, isBlank c
  gap_blank : ∀ c ∈ gap, isBlank c
  rest_blank : ∀ c ∈ rest, isBlank c
  trail_blank : ∀ c ∈ trail, isBlank c
  isQuote : Nesting.isQuote quote
  absent : quote ∉ body

namespace BracedLiteral

/-- The literal with its quotes. -/
def literal (braced : BracedLiteral) : Text := braced.quote :: (braced.body ++ [braced.quote])

/-- The literal with its blanks, in braces. -/
def content (braced : BracedLiteral) : Text :=
  '{' :: ((braced.gap ++ (braced.literal ++ braced.rest)) ++ ['}'])

/-- The whole text. -/
def text (braced : BracedLiteral) : Text := braced.lead ++ (braced.content ++ braced.trail)

/-- The quote of the literal as the value of an attribute, which no template can be. -/
def mark (braced : BracedLiteral) : Char := if braced.quote = '\x60' then '"' else braced.quote

/-- What the literal is written as without braces. -/
def bare (braced : BracedLiteral) : Place → Text
  | .attribute => braced.mark :: (braced.body ++ [braced.mark])
  | .child => braced.body

/-- Whether the braces are taken away at a place. -/
def Allows (braced : BracedLiteral) : Place → Prop
  | .attribute => braced.quote = '\x60' →
      ¬ ['$', '{'] <:+: braced.body ∧ Avoids ['"', '\\', '\n'] braced.body
  | .child => Avoids ['{', '}', '<', '>'] braced.body

instance (braced : BracedLiteral) : (place : Place) → Decidable (braced.Allows place)
  | .attribute => inferInstanceAs (Decidable (_ → _))
  | .child => inferInstanceAs (Decidable (Avoids _ _))

variable {braced : BracedLiteral} {place : Place}

theorem quote_visible (braced : BracedLiteral) : isBlank braced.quote = false := by
  rw [← Bool.not_eq_true]
  intro blank
  have plain := (Nesting.isPlain_of_isBlank blank).1
  rw [braced.isQuote] at plain
  contradiction

theorem ends_text (braced : BracedLiteral) :
    indentation braced.text = braced.lead ∧ trim braced.text = braced.content ∧
      trailing braced.text = braced.trail :=
  ends_of_trimmed braced.lead_blank braced.trail_blank (List.cons_ne_nil _ _)
    (trim_between (by decide) (by decide) _)

theorem trim_gap_append (braced : BracedLiteral) :
    trim (braced.gap ++ (braced.literal ++ braced.rest)) = braced.literal :=
  (ends_of_trimmed braced.gap_blank braced.rest_blank (List.cons_ne_nil _ _)
    (trim_between braced.quote_visible braced.quote_visible _)).2.1

theorem unwrapped?_literal (braced : BracedLiteral) (place : Place) :
    unwrapped? place braced.literal =
      if braced.Allows place then some (braced.bare place) else none := by
  have found : literalBody? braced.literal = some braced.body :=
    literalBody?_eq_some_iff.mpr ⟨braced.quote, rfl, braced.isQuote, braced.absent⟩
  rw [unwrapped?, found, Option.bind_eq_bind, Option.bind_some]
  match place with
  | .attribute =>
      by_cases template : braced.quote = '\x60'
      · have checked : braced.Allows .attribute ↔ (!containsPiece braced.body ['$', '{']) ∧
            !braced.body.any fun c => c = '"' || c = '\\' || c = '\n' := by
          simp [Allows, Avoids, template, ← containsPiece_iff, and_assoc]
        have marked : braced.mark = '"' := if_pos template
        simp only [literal, List.head?_cons, template, if_true, checked, bare, marked]
        cases !containsPiece braced.body ['$', '{'] <;>
          cases !braced.body.any fun c => c = '"' || c = '\\' || c = '\n' <;> rfl
      · have apart : ¬ braced.literal.head? = some '\x60' := by simpa [literal] using template
        have marked : braced.mark = braced.quote := if_neg template
        rw [if_pos (show braced.Allows .attribute from fun same => absurd same template), bare,
          marked]
        simp only [if_neg apart]
        rfl
  | .child =>
      have checked : braced.Allows .child ↔
          !braced.body.any fun c => c = '{' || c = '}' || c = '<' || c = '>' := by
        simp [Allows, Avoids, and_assoc]
      simp only [checked, bare]
      cases !braced.body.any fun c => c = '{' || c = '}' || c = '<' || c = '>' <;> rfl

/-- A text whose body is found is a literal in braces. -/
theorem exists_text_eq {s inner body : Text} (braces : trim s = '{' :: (inner ++ ['}']))
    (found : literalBody? (trim inner) = some body) :
    ∃ braced : BracedLiteral, s = braced.text := by
  obtain ⟨quote, literal_eq, is_quote, absent⟩ := literalBody?_eq_some_iff.mp found
  obtain ⟨lead, trail, s_eq, lead_blank, trail_blank⟩ := exists_eq_append_trim s
  obtain ⟨gap, rest, inner_eq, gap_blank, rest_blank⟩ := exists_eq_append_trim inner
  rw [literal_eq] at inner_eq
  rw [braces, inner_eq] at s_eq
  exact ⟨⟨lead, gap, quote, body, rest, trail, lead_blank, gap_blank, rest_blank, trail_blank,
    is_quote, absent⟩, s_eq⟩

/-- A literal that an attribute allows stands in quotes that its body does not hold. -/
theorem exists_mark (allows : braced.Allows .attribute) :
    ∃ mark, (mark = '"' ∨ mark = '\'') ∧ mark ∉ braced.body ∧
      braced.bare .attribute = mark :: (braced.body ++ [mark]) := by
  by_cases template : braced.quote = '\x60'
  · refine ⟨'"', .inl rfl, fun member => (allows template).2 '"' member (by decide), ?_⟩
    rw [bare, mark, if_pos template]
  · have is_quote := braced.isQuote
    simp only [Nesting.isQuote, Bool.or_eq_true, decide_eq_true_eq, template, or_false] at is_quote
    refine ⟨braced.quote, is_quote.symm, braced.absent, ?_⟩
    rw [bare, mark, if_neg template]

/-- A backslash alone only keeps a template in an attribute from losing its braces. -/
theorem allows_of_backslash (escapes : '\\' ∈ braced.body) (place : Place) :
    braced.Allows place ↔ (place = .attribute ∧ braced.quote ≠ '\x60') ∨
      (place = .child ∧ Avoids ['{', '}', '<', '>'] braced.body) := by
  cases place with
  | «attribute» =>
      simp only [true_and, reduceCtorEq, false_and, or_false]
      refine ⟨fun allows template => ?_, fun other template => absurd template other⟩
      exact (allows template).2 '\\' escapes (by decide)
  | child => simp [Allows]

end BracedLiteral

end Markup

/-- Where the reported range stands. -/
def Site.place (site : Site) : Markup.Place := Markup.placeOf site.document site.range

namespace Repair

open Text Markup

section CurlyBraces

variable {site : Site} {braced : BracedLiteral}

/-- What is offered for a literal in braces. -/
theorem curlyBraces_of_covered (covered : site.text? = some braced.text) :
    curlyBraces site =
      if braced.Allows site.place then
        some (site.replaceRange "Remove unnecessary curly braces"
          (braced.lead ++ braced.bare site.place ++ braced.trail))
      else none := by
  obtain ⟨lead_eq, content_eq, trail_eq⟩ := braced.ends_text
  have no_element : ¬ startsWith braced.content "<" := by
    rw [startsWith_iff]
    rintro ⟨rest, parts⟩
    exact absurd (List.cons.inj parts).1 (by decide)
  have opened : after? ['{'] braced.content =
      some ((braced.gap ++ (braced.literal ++ braced.rest)) ++ ['}']) := after?_eq_some_iff.mpr rfl
  have closed := before?_eq_some_iff.mpr
    (Eq.refl ((braced.gap ++ (braced.literal ++ braced.rest)) ++ ['}']))
  rw [Site.place, curlyBraces, covered, Option.bind_eq_bind, Option.bind_some]
  simp only [content_eq, if_neg no_element, opened, closed, lead_eq, trail_eq,
    braced.trim_gap_append, braced.unwrapped?_literal, Option.bind_some]
  split <;> rfl

/-- Braces are only taken away around a literal. -/
theorem exists_covered {fix : Fix} (offered : curlyBraces site = some fix)
    (titled : fix.title = "Remove unnecessary curly braces") :
    ∃ braced : BracedLiteral, site.text? = some braced.text := by
  obtain ⟨text, text_eq, offered⟩ := Option.bind_eq_some_iff.mp offered
  simp only [Option.bind_eq_bind] at offered
  split at offered
  · obtain rfl := Option.some.inj offered
    have differ : ("Add curly braces around the JSX expression" : Text) ≠
        "Remove unnecessary curly braces" := by decide
    exact absurd titled differ
  · simp only [Option.bind_eq_some_iff, after?_eq_some_iff, before?_eq_some_iff] at offered
    obtain ⟨_, braces, inner, rfl, plain, unwrapped, -⟩ := offered
    obtain ⟨body, found, -⟩ := Option.bind_eq_some_iff.mp unwrapped
    obtain ⟨braced, rfl⟩ := BracedLiteral.exists_text_eq braces found
    exact ⟨braced, text_eq⟩

end CurlyBraces

/-- Braces are taken away exactly around the literals that the place allows.  In an attribute the
body stays in quotes it does not hold, in content it stands alone and holds no brace and no angle
bracket; a literal with a backslash is left alone only as a template in an attribute, or in content
for a brace or an angle bracket.  A range stands in content if the last `=` or `>` before it is
`>`. -/
theorem literal_leaves_braces_iff (site : Site) :
    (site.place = .child ↔ EndsInContent (context site.document site.range)) ∧
    (∀ braced : BracedLiteral, site.text? = some braced.text →
      curlyBraces site =
        if braced.Allows site.place then
          some (site.replaceRange "Remove unnecessary curly braces"
            (braced.lead ++ braced.bare site.place ++ braced.trail))
        else none) ∧
    (∀ fix, curlyBraces site = some fix → fix.title = "Remove unnecessary curly braces" →
      ∃ braced : BracedLiteral, site.text? = some braced.text ∧
        (site.place = .attribute →
          ∃ mark, (mark = '"' ∨ mark = '\'') ∧ mark ∉ braced.body ∧ fix =
            site.replaceRange "Remove unnecessary curly braces"
              (braced.lead ++ (mark :: (braced.body ++ [mark])) ++ braced.trail)) ∧
        (site.place = .child →
          Avoids ['{', '}', '<', '>'] braced.body ∧ fix =
            site.replaceRange "Remove unnecessary curly braces"
              (braced.lead ++ braced.body ++ braced.trail))) ∧
    ∀ braced : BracedLiteral, site.text? = some braced.text → '\\' ∈ braced.body →
      ((curlyBraces site).isSome ↔
        (site.place = .attribute ∧ braced.quote ≠ '\x60') ∨
        (site.place = .child ∧ Avoids ['{', '}', '<', '>'] braced.body)) := by
  refine ⟨placeOf_eq_child_iff, fun braced => curlyBraces_of_covered, fun fix offered titled => ?_,
    fun braced covered escapes => ?_⟩
  · obtain ⟨braced, covered⟩ := exists_covered offered titled
    rw [curlyBraces_of_covered covered, Option.ite_none_right_eq_some, Option.some.injEq] at offered
    obtain ⟨allows, rfl⟩ := offered
    refine ⟨braced, covered, fun place_eq => ?_, fun place_eq => ?_⟩
    · rw [place_eq] at allows ⊢
      obtain ⟨mark, is_mark, absent, bare_eq⟩ := braced.exists_mark allows
      exact ⟨mark, is_mark, absent, by rw [bare_eq]⟩
    · rw [place_eq] at allows ⊢
      exact ⟨allows, rfl⟩
  · rw [← braced.allows_of_backslash escapes, curlyBraces_of_covered covered]
    split <;> simpa

/-- A report about a literal in braces. -/
def bracedSite (text : Text) (range : Range) : Site := .reporting "jsx-curly-braces" text range

/-- A literal with double quotes in it and blanks around it. -/
def quotingLiteral : BracedLiteral where
  lead := []
  gap := [' ']
  quote := '\''
  body := "say \"hi\""
  rest := [' ']
  trail := []
  lead_blank := List.forall_mem_nil _
  gap_blank := List.forall_mem_singleton.mpr (by decide)
  rest_blank := List.forall_mem_singleton.mpr (by decide)
  trail_blank := List.forall_mem_nil _
  isQuote := rfl
  absent := by decide

/-- The literal on a line of its own, behind a tag with an attribute. -/
def quotingSite : Site :=
  bracedSite ("<p id=\"a\">\n  " ++ quotingLiteral.text ++ "\n</p>\n") (.onLine 1 2 16)

/-- A literal with an escape in it. -/
def escapedLiteral : BracedLiteral where
  lead := []
  gap := []
  quote := '"'
  body := "a\\tb"
  rest := []
  trail := []
  lead_blank := List.forall_mem_nil _
  gap_blank := List.forall_mem_nil _
  rest_blank := List.forall_mem_nil _
  trail_blank := List.forall_mem_nil _
  isQuote := rfl
  absent := by decide

/-- The value of an attribute. -/
def attributeSite : Site :=
  bracedSite ("<Foo bar=" ++ escapedLiteral.text ++ " />\n") (.onLine 0 9 17)

/-- The content of an element. -/
def contentSite : Site :=
  bracedSite ("<div>" ++ escapedLiteral.text ++ "</div>\n") (.onLine 0 5 13)

theorem literal_leaves_braces_in_content :
    EndsInContent (context quotingSite.document quotingSite.range) ∧
    curlyBraces quotingSite =
      some (quotingSite.replaceRange "Remove unnecessary curly braces" "say \"hi\"") ∧
    (∃ braced : BracedLiteral, quotingSite.text? = some braced.text ∧
      Avoids ['{', '}', '<', '>'] braced.body) ∧
    (curlyBraces attributeSite).isSome := by
  have covered : quotingSite.text? = some quotingLiteral.text := by decide +kernel
  have in_content : quotingSite.place = .child := by decide +kernel
  obtain ⟨told, offered, titled, -⟩ := literal_leaves_braces_iff quotingSite
  have fix_eq : curlyBraces quotingSite =
      some (quotingSite.replaceRange "Remove unnecessary curly braces" "say \"hi\"") := by
    rw [offered quotingLiteral covered, in_content]
    rfl
  obtain ⟨braced, same, -, content⟩ := titled _ fix_eq rfl
  refine ⟨told.mp in_content, fix_eq, ⟨braced, same, (content in_content).1⟩, ?_⟩
  have escaped := (literal_leaves_braces_iff attributeSite).2.2.2 escapedLiteral
    (by decide +kernel) (by decide)
  exact escaped.mpr (.inl ⟨by decide +kernel, by decide⟩)

/-- The escape is written where escapes mean nothing. -/
theorem escape_left_without_braces :
    '\\' ∈ escapedLiteral.body ∧ attributeSite.text? = some escapedLiteral.text ∧
    curlyBraces attributeSite =
      some (attributeSite.replaceRange "Remove unnecessary curly braces" "\"a\\tb\"") ∧
    contentSite.text? = some escapedLiteral.text ∧
    curlyBraces contentSite =
      some (contentSite.replaceRange "Remove unnecessary curly braces" "a\\tb") := by
  decide +kernel

end Repair

end LintRepair
