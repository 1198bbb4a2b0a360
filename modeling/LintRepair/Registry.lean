import LintRepair.Repair.Annotation
import LintRepair.Repair.Binding
import LintRepair.Repair.CaseClause
import LintRepair.Repair.Equality
import LintRepair.Repair.Expression
import LintRepair.Repair.IgnoreComment
import LintRepair.Repair.ImportLine
import LintRepair.Repair.Markup
import LintRepair.Repair.Member
import LintRepair.Suppression

/-!
# The registry of providers

Providers stand in order of preference.  Behind them comes a fallback that claims every rule: it
follows a hint that names a replacement, and always links the documentation of the rule.
-/

namespace LintRepair

namespace Repair

/-- The documentation of a violated rule: its own address, else one below the base. -/
def docsUrl (site : Site) : Text :=
  site.diagnostic.docsUrl.getD (Diagnostic.ruleDocsUrl site.settings.docsBase site.code)

/-- For every rule: the replacement that the hint names, and a link to the documentation. -/
def general (site : Site) : List Fix :=
  (site.hint?.bind (useInstead · site.diagnostic)).toList ++
    [.ofAction "Learn more about this rule" site.diagnostic (.openUrl (docsUrl site))]

end Repair

/-- Providers in order of preference, the fallback apart. -/
structure Registry where
  /-- The providers with rules of their own. -/
  providers : List Provider

namespace Registry

/-- The provider behind all others. -/
def fallback : Provider := .total [Provider.wildcard] Repair.general

/-- The registry with the fallback only. -/
def empty : Registry := ⟨[]⟩

/-- The built-in providers. -/
def builtin : Registry where
  providers := [
    .single "ban-unused-ignore" Repair.unusedIgnore,
    .single "ban-untagged-ignore" Repair.untaggedIgnore,
    .single "ban-unknown-rule-code" Repair.unknownCode,
    .total ["no-unused-vars"] Repair.unusedVariable,
    .single "prefer-const" Repair.letToConst,
    .single "no-var" Repair.varToLet,
    .single "camelcase" Repair.camelCase,
    .single "no-inferrable-types" Repair.inferrableType,
    .single "no-fallthrough" Repair.fallthrough,
    .single "no-case-declarations" Repair.caseDeclarations,
    .single "jsx-boolean-value" Repair.booleanAttribute,
    .single "jsx-curly-braces" Repair.curlyBraces,
    .single "jsx-no-comment-text-nodes" Repair.commentText,
    .single "jsx-no-useless-fragment" Repair.uselessFragment,
    .total ["eqeqeq"] Repair.looseEquality,
    .single "no-extra-boolean-cast" Repair.booleanCast,
    .single "no-new-symbol" Repair.newSymbol,
    .single "no-non-null-asserted-optional-chain" Repair.assertedChain,
    .single "no-octal" Repair.octalLiteral,
    .single "no-prototype-builtins" Repair.prototypeCall,
    .single "no-sparse-arrays" Repair.sparseArray,
    .single "no-throw-literal" Repair.thrownLiteral,
    .single "ban-types" Repair.bannedType,
    .total ["no-explicit-any"] Repair.explicitAny,
    .single "no-misused-new" Repair.misusedNew,
    .single "no-process-global" Repair.processGlobal,
    .total ["no-node-globals"] Repair.nodeGlobal,
    .single "no-import-assertions" Repair.importAssertion,
    ⟨["no-sloppy-imports"], Repair.sloppyImport⟩,
    .single "no-useless-rename" Repair.uselessRename,
    .total ["verbatim-module-syntax"] Repair.typeOnlyImport,
    .total ["no-invalid-triple-slash-reference"] Repair.referenceComment,
    .single "constructor-super" Repair.superCall,
    .single "no-debugger" fun site => some (Repair.debuggerStatement site),
    .single "no-setter-return" fun site => some (Repair.setterReturn site),
    .single "require-await" Repair.needlessAsync,
    .single "require-yield" Repair.needlessGenerator]

/-- All providers in order of preference, the fallback last. -/
def all (registry : Registry) : List Provider := registry.providers ++ [fallback]

/-- The providers that claim the rule of a diagnostic, in order of preference. -/
def claiming (registry : Registry) (diagnostic : Diagnostic) : List Provider :=
  registry.all.filter (·.claims diagnostic)

/-- Whether a rule has a provider of its own. -/
def hasProvider (registry : Registry) (code : Text) : Bool :=
  registry.providers.any (·.codes.contains code)

/-- The rules that have providers of their own, in order of preference. -/
def ruleCodes (registry : Registry) : List Text := registry.providers.flatMap (·.codes)

end Registry

end LintRepair
