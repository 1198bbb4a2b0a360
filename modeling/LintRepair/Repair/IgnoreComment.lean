import LintRepair.Directive
import LintRepair.Hint
import LintRepair.Provider

/-!
# Repairs of ignore directives

A code that silences nothing or that no rule has is taken from the nearest directive that lists it;
a directive without codes goes.
-/

namespace LintRepair

namespace Repair

/-- Lines above a diagnostic that are searched for the directive it is about. -/
def directiveLinesBefore : Nat := 10

/-- Lines below a diagnostic that are searched for the directive it is about. -/
def directiveLinesAfter : Nat := 3

/-- The fix that takes a code from the nearest directive listing it. -/
def removeCode (site : Site) (title code : Text) : Option Fix := do
  let (line, directive) ←
    site.document.directiveListing? site.range directiveLinesBefore directiveLinesAfter code
  return site.fix title (← site.document.removalEdit? line directive code)

/-- For `ban-unused-ignore`: the code is the first quoted text of the message, else of the hint. -/
def unusedIgnore (site : Site) : Option Fix := do
  let code ← Hint.quotedCode? site.diagnostic.message <|> site.hint?.bind Hint.quotedCode?
  removeCode site ("Remove unused ignore rule '" ++ code ++ "'") code

/-- For `ban-unknown-rule-code`: the code is the unknown one that the message names. -/
def unknownCode (site : Site) : Option Fix := do
  let code ← Hint.unknownCode? site.diagnostic.message
  removeCode site ("Remove unknown rule '" ++ code ++ "'") code

/-- For `ban-untagged-ignore`: the nearest line directive without codes, from five lines above to
two below. -/
def untaggedIgnore (site : Site) : Option Fix := do
  let (line, _) ← site.document.nearestDirective? site.range 5 2
    fun directive => directive.scope = .line && directive.isBare
  return site.fix "Remove bare 'deno-lint-ignore' comment"
    (.delete (site.document.deletionRange line))

end Repair

end LintRepair
