import LintRepair.Provider
import LintRepair.Text.Blank
import LintRepair.Text.Nesting

/-!
# Repairs of markup

Attributes, expressions in braces, comments and fragments in markup.  Whether a place is an
attribute value or element content is told by the last `=` or `>` before it.
-/

namespace LintRepair

namespace Markup

/-- Where an expression in braces stands. -/
inductive Place where
  /-- In an attribute. -/
  | attribute
  /-- In the content of an element. -/
  | child
  deriving DecidableEq, Repr

/-- The place behind a text, told by the last `=` or `>` in it. -/
def placeAfter? (s : Text) : Option Place :=
  (s.reverse.find? fun c => c = '=' || c = '>').map fun c => if c = '=' then .attribute else .child

/-- Lines above a range that are searched to tell its place. -/
def contextLines : Nat := 10

/-- The place of a range, an attribute when nothing before it tells. -/
def placeOf (d : Document) (r : Range) : Place :=
  let line := r.start.line
  let above := (List.range' (line - contextLines) (min line contextLines)).reverse.map fun index =>
    (d.line? index).getD []
  ((d.textBefore r :: above).findSome? placeAfter?).getD .attribute

/-- What stands for a string literal in braces at a place: an attribute keeps the literal or gets
double quotes instead of backticks, content takes the bare characters. -/
def unwrapped? (place : Place) (literal : Text) : Option Text := do
  let body ← Text.literalBody? literal
  match place with
  | .attribute =>
      if literal.head? = some '\x60' then
        guard (!Text.containsPiece body ['$', '{'])
        guard (!body.any fun c => c = '"' || c = '\\' || c = '\n')
        return '"' :: body ++ ['"']
      else return literal
  | .child =>
      guard (!body.any fun c => c = '{' || c = '}' || c = '<' || c = '>')
      return body

/-- Whether the tags of short fragments in a text close each other, `depth` of them being open. -/
def shortFragmentsClose (depth : Nat) : Text → Bool
  | [] => depth = 0
  | '<' :: '>' :: rest => shortFragmentsClose (depth + 1) rest
  | '<' :: '/' :: '>' :: rest => depth ≠ 0 && shortFragmentsClose (depth - 1) rest
  | _ :: rest => shortFragmentsClose depth rest

/-- The starts of the opening tags of named fragments with their closing tags. -/
def namedFragments : List (Text × Text) :=
  [("<React.Fragment", "</React.Fragment>"), ("<Fragment", "</Fragment>")]

/-- The children of a named fragment, given what follows the start of its opening tag. -/
def namedChildren? (opening closing rest : Text) : Option Text := do
  let inside ← Text.before? closing rest
  let (attributes, children) ← Text.splitFirst? ">" inside
  guard (!Text.endsWith attributes "/" && !Text.containsPiece children opening)
  return children

/-- The children of a fragment that is a whole text. -/
def fragmentChildren? (s : Text) : Option Text :=
  match Text.after? "<>" s with
  | some rest => (Text.before? "</>" rest).filter (shortFragmentsClose 0)
  | none => do
      let (opening, closing, rest) ← namedFragments.findSome? fun (opening, closing) => do
        let rest ← Text.after? opening s
        guard (rest.head?.any fun c => c = '>' || Text.isBlank c)
        return (opening, closing, rest)
      namedChildren? opening closing rest

end Markup

namespace Repair

/-- For `jsx-boolean-value`: an attribute with the value `true` loses it. -/
def booleanAttribute (site : Site) : Option Fix := do
  guard (site.range.isSingleLine && Text.trim (← site.text?) = "\x7btrue\x7d")
  let (name, gap) ← Text.splitLast? '=' site.textBefore
  guard (Text.isAllBlank gap)
  let start : Position := ⟨site.line, Text.byteSize (Text.trimEnd name)⟩
  return site.fix "Simplify JSX boolean attribute" (.delete (.between start site.range.stop))

/-- For `jsx-curly-braces`: an element gets braces, a string literal loses them. -/
def curlyBraces (site : Site) : Option Fix := do
  let text ← site.text?
  let content := Text.trim text
  let around (s : Text) : Text := Text.indentation text ++ s ++ Text.trailing text
  if Text.startsWith content "<" then
    return site.replaceRange "Add curly braces around the JSX expression"
      (around ('{' :: content ++ ['}']))
  else
    let literal := Text.trim (← Text.before? ['}'] (← Text.after? ['{'] content))
    let plain ← Markup.unwrapped? (Markup.placeOf site.document site.range) literal
    return site.replaceRange "Remove unnecessary curly braces" (around plain)

/-- For `jsx-no-comment-text-nodes`: a comment in content gets braces. -/
def commentText (site : Site) : Option Fix := do
  let comment := Text.trim (← site.text?)
  guard (Text.startsWith comment "/*" && Text.endsWith comment "*/")
  return site.replaceRange "Wrap comment in curly braces" ('{' :: comment ++ ['}'])

/-- For `jsx-no-useless-fragment`: a fragment gives way to its children. -/
def uselessFragment (site : Site) : Option Fix := do
  let children ← Markup.fragmentChildren? (Text.trim (← site.text?))
  return site.replaceRange "Remove this Fragment"
    (if Text.isAllBlank children then [] else children)

end Repair

end LintRepair
