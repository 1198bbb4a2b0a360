import LintRepair.Provider
import LintRepair.Text.Nesting
import LintRepair.Text.Search

/-!
# Repairs of expressions

Casts, constructor calls, assertions, literals and calls of an inherited method.
-/

namespace LintRepair

namespace Expression

/-- The operand of a cast to boolean, by `!!` or by a call of `Boolean` with one argument. -/
def uncast? (s : Text) : Option Text :=
  match Text.after? "!!" s with
  | some operand =>
      let operand := Text.trimStart operand
      if operand.isEmpty then none else some operand
  | none => do
      let argument := Text.trim (← Text.before? ")" (← Text.after? "Boolean(" s))
      guard (!argument.isEmpty && Text.isBalanced argument)
      return argument

/-- The call of `Symbol` behind `new`. -/
def newSymbol : Text.Recogniser Text := fun before s => do
  let s ← Text.afterBlanks? (← Text.afterWordStart? "new" before s)
  let gap ← Text.after? "Symbol" s
  let s ← Text.after? "(" (Text.trimStart gap)
  return ("Symbol" ++ Text.indentation gap ++ "(", s)

/-- A text with `new` taken from every call of `Symbol`, if there is one. -/
def withoutNew? (s : Text) : Option Text :=
  if Text.occurs newSymbol s then some (Text.replaceAll newSymbol s) else none

/-- An optional chain that ends in an assertion, without the assertion. -/
def withoutAssertion? (s : Text) : Option Text := do
  let chain ← Text.before? "!" (Text.trimEnd s)
  guard (Text.containsPiece chain "?.")
  return chain ++ Text.trailing s

/-- The digits of an octal literal that starts with a bare zero. -/
def octalDigits? (s : Text) : Option Text := do
  let digits ← Text.after? "0" s
  guard (!digits.isEmpty && digits.all fun c => '0' ≤ c && c ≤ '7')
  return digits

/-- The inner text of an array literal, blanks around it passed over. -/
def arrayInner? (s : Text) : Option Text := do
  Text.before? "]" (← Text.after? "[" (Text.trim s))

/-- The elements of an array given by its inner text, without blanks around them and without the
empty slots. -/
def elements (inner : Text) : List Text :=
  ((Text.splitTopLevel ',' inner).map Text.trim).filter (!·.isEmpty)

/-- An array literal without empty slots, if that differs. -/
def compacted? (s : Text) : Option Text := do
  let inner ← arrayInner? s
  let compact := "[" ++ Text.joined ", " (elements inner) ++ "]"
  guard (compact ≠ Text.trim s)
  return compact

/-- The thrown expression of a `throw` statement and the semicolon at its end, if there is one.
The expression takes at least one character. -/
def thrown? (s : Text) : Option (Text × Text) := do
  let body := Text.trimEnd (← Text.afterBlanks? (← Text.after? "throw" s))
  guard (!body.isEmpty)
  match Text.before? ";" body with
  | some (c :: cs) => return (c :: cs, ";")
  | _ => return (body, [])

/-- One more access behind a receiver: a member name, or a bracketed index. -/
def access? : Text → Option (Text × Text)
  | '.' :: c :: rest =>
      if Text.isNameStart c then
        some ('.' :: c :: rest.takeWhile Text.isNamePart, rest.dropWhile Text.isNamePart)
      else none
  | '[' :: rest =>
      match Text.run? (· ≠ ']') rest with
      | some (index, ']' :: rest) => some ('[' :: index ++ [']'], rest)
      | _ => none
  | _ => none

/-- The ways to take accesses from a text, from as many as possible to none, each with the text
left. -/
def accesses (s : Text) : List (Text × Text) :=
  match access? s with
  | none => [([], s)]
  | some (taken, rest) =>
      if rest.length < s.length then
        (accesses rest).map (fun (more, rest) => (taken ++ more, rest)) ++ [([], s)]
      else [([], s)]
termination_by s.length

/-- The ways to take a receiver from a text: a name with accesses, or one bracketed text. -/
def receivers (s : Text) : List (Text × Text) :=
  match s with
  | [] => []
  | c :: cs =>
      if Text.isNameStart c then
        let name := c :: cs.takeWhile Text.isNamePart
        (accesses (cs.dropWhile Text.isNamePart)).map fun (more, rest) => (name ++ more, rest)
      else if c = '[' then (access? s).toList
      else []

/-- The argument in the text between parentheses: without blanks around it, or the last blank when
there is nothing else. -/
def argument? (s : Text) : Option Text :=
  if Text.isAllBlank s then s.getLast?.map ([·]) else some (Text.trim s)

/-- The argument of a call of `hasOwnProperty` behind a receiver. -/
def ownPropertyCall? (s : Text) : Option (Text × Text) := do
  let s ← Text.after? "." (Text.trimStart s)
  let s ← Text.after? "hasOwnProperty" (Text.trimStart s)
  let s ← Text.after? "(" (Text.trimStart s)
  match s.dropWhile (· ≠ ')') with
  | [] => none
  | _ :: rest => return (← argument? (s.takeWhile (· ≠ ')')), rest)

/-- A call of `hasOwnProperty`, with the call of `Object.hasOwn` for it.  A receiver that goes on
with another expression is left as it is. -/
def ownProperty : Text.Recogniser Text := fun before s =>
  (receivers s).findSome? fun (receiver, behind) => do
    let (argument, rest) ← ownPropertyCall? behind
    if (before.dropWhile Text.isBlank).head? = some '.' then
      return (Text.consumed s rest, rest)
    else
      return ("Object.hasOwn(" ++ receiver ++ ", " ++ argument ++ ")", rest)

end Expression

namespace Repair

/-- For `no-extra-boolean-cast`: the operand stands for the cast. -/
def booleanCast (site : Site) : Option Fix := do
  let operand ← Expression.uncast? (Text.trim (← site.text?))
  return site.replaceRange "Remove unnecessary boolean cast" operand

/-- For `no-new-symbol`: `Symbol` is called without `new`, in the reported range or else on its
line. -/
def newSymbol (site : Site) : Option Fix :=
  let title : Text := "Remove `new` keyword"
  (site.text?.bind Expression.withoutNew?).map (site.replaceRange title) <|>
    (Expression.withoutNew? site.lineText).map (site.replaceLine title)

/-- For `no-non-null-asserted-optional-chain`: the assertion goes. -/
def assertedChain (site : Site) : Option Fix := do
  let chain ← site.text?.bind Expression.withoutAssertion?
  return site.replaceRange (site.hint?.getD "Remove non-null assertion") chain

/-- For `no-octal`: the literal gets its explicit mark. -/
def octalLiteral (site : Site) : Option Fix := do
  let digits ← Expression.octalDigits? (Text.trim (← site.text?))
  return site.replaceRange "Use `0o` prefix for the octal number" ("0o" ++ digits)

/-- For `no-prototype-builtins`: calls of `hasOwnProperty` on the line become calls of
`Object.hasOwn`. -/
def prototypeCall (site : Site) : Option Fix := do
  let line := Text.replaceAll Expression.ownProperty site.lineText
  guard (line ≠ site.lineText)
  return site.replaceLine "Use `Object.hasOwn()` instead" line

/-- For `no-sparse-arrays`: the empty slots go. -/
def sparseArray (site : Site) : Option Fix := do
  let array ← site.text?.bind Expression.compacted?
  return site.replaceRange "Remove empty slots from the array" array

/-- For `no-throw-literal`: a thrown string literal is wrapped in an error.  The range may be the
statement or only the literal. -/
def thrownLiteral (site : Site) : Option Fix := do
  let title : Text := "Wrap the string in `new Error()`"
  let text := Text.trim (← site.text?)
  match Expression.thrown? text with
  | some (expression, semicolon) =>
      let expression := Text.trim expression
      guard (Text.literalBody? expression).isSome
      return site.replaceRange title ("throw new Error(" ++ expression ++ ")" ++ semicolon)
  | none =>
      guard ((Text.literalBody? text).isSome
        && Text.endsWith (Text.trimEnd site.textBefore) "throw")
      return site.replaceRange title ("new Error(" ++ text ++ ")")

end Repair

end LintRepair
