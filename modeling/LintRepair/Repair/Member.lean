import LintRepair.Hint
import LintRepair.Provider

/-!
# Repairs of statements and members

Statements that have to go, keywords that a function does not need, and the name under which a
class or an interface declares its constructor.
-/

namespace LintRepair

namespace Member

/-- A `debugger` statement with its semicolon and the blanks behind it. -/
def debuggerStatement : Text.Recogniser Unit := fun before s => do
  let s := Text.trimStart (← Text.afterWord? "debugger" before s)
  return ((), ((Text.after? ";" s).map Text.trimStart).getD s)

/-- The keyword `async` with the blanks behind it. -/
def asyncKeyword : Text.Recogniser Text := fun before s => do
  return ([], ← Text.afterBlanks? (← Text.afterWordStart? "async" before s))

/-- The head of a generator function, with the head of a plain function for it: a blank is left
unless there is none on either side of the star. -/
def generatorHead : Text.Recogniser Text := fun before s => do
  let gap ← Text.afterWordStart? "function" before s
  let behind ← Text.after? "*" (Text.trimStart gap)
  let rest := Text.trimStart behind
  let tight := (Text.indentation gap).isEmpty && (Text.indentation behind).isEmpty
  return (if tight then "function" else "function ", rest)

/-- A keyword that starts a signature, to be replaced; blanks before the parameters go. -/
def signature (keyword replacement : Text) : Text.Recogniser Text := fun before s => do
  match Text.trimStart (← Text.afterWordStart? keyword before s) with
  | c :: rest =>
      guard (c = '(' || c = '<')
      return (replacement ++ [c], rest)
  | [] => none

/-- What a member belongs to. -/
inductive Owner where
  /-- The body of a class. -/
  | ofClass
  /-- The body of an interface or of an object type. -/
  | ofInterface
  deriving DecidableEq, Repr

/-- The text behind an optional keyword and its blanks. -/
def skipKeyword (keyword s : Text) : Text := ((Text.after? keyword s).bind Text.afterBlanks?).getD s

/-- Whether an equals sign and an opening brace follow each other in a text. -/
def opensObjectType (s : Text) : Bool :=
  Text.occurs (fun _ s => do
    let s ← Text.after? ['{'] (Text.trimStart (← Text.after? "=" s))
    return ((), s)) s

/-- Whether a text starts the declaration of an object type. -/
def isObjectType (s : Text) : Bool :=
  match (Text.after? "type" s).bind Text.afterBlanks? with
  | some (c :: rest) => Text.isWord c && opensObjectType rest
  | _ => false

/-- What a line declares, if it is the head of a class or interface. -/
def ownerOf? (line : Text) : Option Owner :=
  let declaration := skipKeyword "export" (Text.trimStart line)
  let classHead :=
    skipKeyword "abstract" (skipKeyword "declare" (skipKeyword "default" declaration))
  let typeHead := skipKeyword "declare" declaration
  if (Text.afterWordEnd? "class" classHead).isSome then some .ofClass
  else if (Text.afterWordEnd? "interface" typeHead).isSome || isObjectType typeHead then
    some .ofInterface
  else none

/-- Lines above a member that are searched for the head of its owner. -/
def maxOwnerDistance : Nat := 200

/-- The owner whose head is nearest at or above a line. -/
def enclosingOwner? (d : Document) (line : Nat) : Option Owner :=
  let first := line - maxOwnerDistance
  (List.range' first (line + 1 - first)).reverse.findSome? fun index =>
    (d.line? index).bind ownerOf?

end Member

namespace Repair

/-- For `constructor-super`: the call goes if the hint says so. -/
def superCall (site : Site) : Option Fix := do
  guard (site.hint?.any Hint.removesSuperCall)
  return .deleteRange "Remove super()" site.diagnostic

/-- For `no-debugger`: the statement goes, with its line if it stands alone. -/
def debuggerStatement (site : Site) : Fix :=
  let title : Text := "Remove `debugger` statement"
  let alone := Text.trim site.lineText
  if alone = "debugger" ∨ alone = "debugger;" then
    .deleteLine title site.diagnostic site.document
  else
    let start := site.range.start.column
    let found := (Text.from? site.lineText start).bind fun behind =>
      (Text.find? Member.debuggerStatement behind).map fun found =>
        let first := start + Text.byteSize found.before
        let length := Text.byteSize (Text.consumed behind found.rest)
        site.fix title (.delete (.onLine site.line first (start + length)))
    found.getD (.deleteRange title site.diagnostic)

/-- For `no-setter-return`: the reported statement goes. -/
def setterReturn (site : Site) : Fix := .deleteRange "Remove the return statement" site.diagnostic

/-- For `require-await`: the first `async` of the line goes. -/
def needlessAsync (site : Site) : Option Fix := do
  let line ← Text.replaceFirst? Member.asyncKeyword site.lineText
  return site.replaceLine "Remove `async` keyword" line

/-- For `require-yield`: the first generator of the line becomes a plain function. -/
def needlessGenerator (site : Site) : Option Fix := do
  let line ← Text.replaceFirst? Member.generatorHead site.lineText
  return site.replaceLine "Remove `*` from the function" line

/-- For `no-misused-new`: a class declares `constructor`, an interface `new`. -/
def misusedNew (site : Site) : Option Fix := do
  match ← Member.enclosingOwner? site.document site.line with
  | .ofClass =>
      let line ← Text.replaceFirst? (Member.signature "new" "constructor") site.lineText
      return site.replaceLine "Change to constructor()" line
  | .ofInterface =>
      let line ← Text.replaceFirst? (Member.signature "constructor" "new") site.lineText
      return site.replaceLine "Change to new()" line

end Repair

end LintRepair
