import LintRepair.Hint
import LintRepair.Provider
import LintRepair.Text.Nesting

/-!
# Repairs of bindings

Renaming a binding, removing it from its declaration, and changing the keyword that declares it.
Only declarations on one line are taken apart.
-/

namespace LintRepair

/-- The parts of a one-line declaration. -/
structure Declaration where
  /-- Blanks before the keyword. -/
  indent : Text
  /-- The declaring keyword. -/
  keyword : Text
  /-- The text of all bindings. -/
  bindings : Text
  /-- The semicolon at the end, if there is one. -/
  semicolon : Text
  deriving DecidableEq, Repr

namespace Declaration

/-- The keywords that declare variables. -/
def keywords : List Text := ["const", "let", "var"]

/-- Reads a line that consists of a declaration. -/
def parse? (line : Text) : Option Declaration :=
  keywords.findSome? fun keyword => do
    let body ← Text.afterBlanks? (← Text.after? keyword (Text.trimStart line))
    let body := Text.trimEnd body
    match Text.before? ";" body with
    | some bindings => return ⟨Text.indentation line, keyword, Text.trimEnd bindings, ";"⟩
    | none => return ⟨Text.indentation line, keyword, body, []⟩

/-- The name that a binding such as `a: number = 1` declares. -/
def bindingName (binding : Text) : Text :=
  Text.trim (binding.takeWhile fun c => c ≠ '=' && c ≠ ':')

/-- What becomes of a line when the only binding of a name is taken from its declaration. -/
def withoutBinding? (line name : Text) : Option LineChange := do
  guard (Text.isBalanced line)
  let declaration ← parse? line
  guard ((Text.splitTopLevel ';' declaration.bindings).length ≤ 1)
  let bindings := Text.splitTopLevel ',' declaration.bindings
  let kept := (bindings.map Text.trim).filter fun binding => bindingName binding ≠ name
  guard (kept.length + 1 = bindings.length)
  if kept.isEmpty then return .delete
  else
    return .replace (declaration.indent ++ declaration.keyword ++ " " ++ Text.joined ", " kept
      ++ declaration.semicolon)

/-- The bindings of a `let` declaration that fills a line. -/
def letBindings? (line : Text) : Option Text := do
  let body ← Text.afterBlanks? (← Text.after? "let" (Text.trimStart line))
  let body := Text.trimEnd body
  return (Text.before? ";" body).getD body

/-- The head of a loop that declares its variable by `let`. -/
def loopHead : Text.Recogniser Unit := fun before s => do
  let s ← Text.afterWordStart? "for" before s
  let s ← Text.after? "(" (Text.trimStart s)
  let s ← Text.afterWordEnd? "let" (Text.trimStart s)
  return ((), s)

/-- Whether the only `let` of a line declares a single binding. -/
def bindsOne (line : Text) : Bool :=
  match letBindings? line with
  | some bindings => (Text.splitTopLevel ',' bindings).length = 1
  | none => Text.occurs loopHead line

end Declaration

namespace Repair

/-- The fix that puts an underscore in front of the identifier under a diagnostic, unless one is
there. -/
def underscore (d : Diagnostic) (document : Document) (title : Option Text) : Option Fix := do
  let name ← document.textIn? d.range
  guard (Text.isIdentifier name && !Text.startsWith name "_")
  let own := "Prefix '" ++ name ++ "' with underscore: _" ++ name
  return .replaceRange (title.getD own) d ('_' :: name)

/-- For `no-unused-vars`: an underscore, or on request the removal of the binding. -/
def unusedVariable (site : Site) : List Fix :=
  match site.text?.filter Text.isIdentifier with
  | none => []
  | some name =>
      let removal := do
        let change ← Declaration.withoutBinding? (← site.document.line? site.line) name
        return (site.fix ("Remove unused variable '" ++ name ++ "'")
          (site.document.changeLine site.line change)).onRequest
      (underscore site.diagnostic site.document none).toList ++ removal.toList

/-- For `prefer-const`: the only `let` of a line becomes `const` if it declares one binding, unless
the hint says otherwise. -/
def letToConst (site : Site) : Option Fix := do
  guard (site.hint?.all fun hint => Hint.replacement? hint = some ("const" : Text))
  let keyword ← Text.soleWord? "let" site.lineText
  guard (Declaration.bindsOne site.lineText)
  return site.replaceLine "Use `const` instead" (keyword.before ++ "const" ++ keyword.rest)

/-- For `no-var`: the first `var` of the line becomes `let`. -/
def varToLet (site : Site) : Option Fix := do
  let line ← Text.replaceFirst? (Text.wordAs "var" "let") site.lineText
  return site.replaceLine (site.hint?.getD "Use `let` instead") line

/-- For `camelcase`: the renaming that the hint names, of the reported place only. -/
def camelCase (site : Site) : Option Fix := do
  let (old, new) ← site.hint? >>= Hint.rename?
  guard (site.text? = some old)
  return site.replaceRange ("Rename `" ++ old ++ "` to `" ++ new ++ "`") new

end Repair

end LintRepair
