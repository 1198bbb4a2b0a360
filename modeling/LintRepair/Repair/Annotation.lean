import LintRepair.Hint
import LintRepair.Provider

/-!
# Repairs of types

Dropping an annotation that the value implies, dropping an assertion to `any`, and putting a
better type in place of a banned one.
-/

namespace LintRepair

/-- Whether a character in front of `=` makes it part of another operator. -/
def joinsEquals (c : Char) : Bool := c = '=' || c = '!' || c = '<' || c = '>'

/-- The parts around the first `=` that assigns. -/
def splitAssignment? (before : Option Char) : Text → Option (Text × Text)
  | [] => none
  | c :: cs =>
      if c = '=' && !before.any joinsEquals && !cs.head?.any (fun d => d = '=' || d = '>') then
        some ([], cs)
      else
        (splitAssignment? (some c) cs).map fun (left, right) => (c :: left, right)

/-- A binding with its annotation dropped. -/
def withoutAnnotation? (binding : Text) : Option Text := do
  let (left, value) ← splitAssignment? none binding
  let (name, _) ← Text.splitFirst? ":" left
  return Text.trimEnd name ++ " = " ++ Text.trimStart value

/-- Place in bytes, in the text before a type, where the annotation starts that the type ends. -/
def annotationStart? (before : Text) : Option Nat :=
  (Text.before? ":" (Text.trimEnd before)).map fun name => Text.byteSize (Text.trimEnd name)

/-- Place in bytes, in the text before a type, where the `as` of an assertion to it starts, blanks
included. -/
def asStart? (before : Text) : Option Nat := do
  let operand ← Text.before? "as" (Text.trimEnd before)
  guard (operand.getLast?.any Text.isBlank)
  return Text.byteSize (Text.trimEnd operand)

/-- Place in bytes, in the text before a type, of the angle bracket that opens an assertion to
it.  A name in front of the bracket makes it something else. -/
def angleStart? (before : Text) : Option Nat := do
  let operator ← Text.before? "<" (Text.trimEnd before)
  guard (!(Text.trimEnd operator).getLast?.any Text.isNamePart)
  return Text.byteSize operator

/-- Length in bytes of the end of an assertion in angle brackets, in the text after its type. -/
def angleEnd? (after : Text) : Option Nat :=
  if Text.startsWith (Text.trimStart after) ">" then
    some (Text.byteSize (Text.indentation after) + 1)
  else none

namespace Repair

/-- For `no-inferrable-types`: the range may be a binding, an annotation or a type. -/
def inferrableType (site : Site) : Option Fix := do
  let title : Text := "Remove unnecessary type annotation"
  let text ← site.text?
  match withoutAnnotation? text with
  | some binding => return site.replaceRange title binding
  | none =>
      if Text.startsWith (Text.trimStart text) ":" then
        return site.fix title (.delete site.range)
      else
        guard site.range.isSingleLine
        let start ← annotationStart? site.textBefore
        return site.fix title (.delete (.between ⟨site.line, start⟩ site.range.stop))

/-- The range of the whole assertion whose type is under the reported range. -/
def assertionRange? (site : Site) : Option Range := do
  guard site.range.isSingleLine
  match asStart? site.textBefore with
  | some start => return .between ⟨site.line, start⟩ site.range.stop
  | none =>
      let start ← angleStart? site.textBefore
      let length ← angleEnd? (site.document.textAfter site.range)
      return .onLine site.line start (site.range.stop.column + length)

/-- For `no-explicit-any`: the assertion is dropped, or the type becomes `unknown`. -/
def explicitAny (site : Site) : List Fix :=
  if site.text?.map Text.trim = some ("any" : Text) then
    let drop := (assertionRange? site).map fun range =>
      site.fix "Remove type assertion" (.delete range)
    drop.toList ++ [site.replaceRange "Use `unknown` instead" "unknown"]
  else []

/-- The fix that puts the replacement named by a hint under a diagnostic. -/
def useInstead (hint : Text) (d : Diagnostic) : Option Fix :=
  (Hint.replacement? hint).map fun replacement =>
    .replaceRange ("Use `" ++ replacement ++ "` instead") d replacement

/-- The replacement of a banned type that no hint is given for. -/
def bannedReplacement? (type : Text) : Option Text :=
  if type = "Function" then some "(...args: unknown[]) => unknown"
  else if type = "\x7b\x7d" then some "Record<PropertyKey, never>"
  else none

/-- For `ban-types`: the replacement of the hint, else the usual one. -/
def bannedType (site : Site) : Option Fix :=
  (site.hint?.bind (useInstead · site.diagnostic)) <|> do
    let replacement ← bannedReplacement? (Text.trim (← site.text?))
    return site.replaceRange ("Use `" ++ replacement ++ "` instead") replacement

end Repair

end LintRepair
