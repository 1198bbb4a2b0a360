import LintRepair.Registry
import LintRepair.Relevance

/-!
# The dispatcher

For each relevant diagnostic the dispatcher takes the fixes of the first provider that has any that
can be applied, as far as the mode of the rule allows.  The actions that silence a rule come behind
all of them.
-/

namespace LintRepair

/-- A registry under settings. -/
structure Dispatcher where
  /-- Where fixes come from. -/
  registry : Registry
  /-- What is offered. -/
  settings : Settings

namespace Dispatcher

/-- A diagnostic in a document under the settings of the dispatcher. -/
def site (dispatcher : Dispatcher) (diagnostic : Diagnostic) (document : Document) : Site :=
  ⟨diagnostic, document, dispatcher.settings⟩

/-- The usable fixes of the first claiming provider that has any. -/
def ruleFixes (dispatcher : Dispatcher) (diagnostic : Diagnostic) (document : Document) :
    List Fix :=
  let site := dispatcher.site diagnostic document
  (((dispatcher.registry.claiming diagnostic).map (·.usableFixes site)).find?
    (!·.isEmpty)).getD []

/-- The usable actions that silence the rule of a diagnostic. -/
def disableFixes (dispatcher : Dispatcher) (diagnostic : Diagnostic) (document : Document) :
    List Fix :=
  Suppression.provider.usableFixes (dispatcher.site diagnostic document)

/-- The diagnostics from lint reports that a request is about and whose rules are not off. -/
def selected (dispatcher : Dispatcher) (diagnostics : List Diagnostic) (requested : Range) :
    List Diagnostic :=
  (Relevance.select (diagnostics.filter (·.isFromLint)) requested).filter fun diagnostic =>
    dispatcher.settings.ruleMode diagnostic.code ≠ .off

/-- Whether fixes are offered for a diagnostic. -/
def offersFixes (dispatcher : Dispatcher) (diagnostic : Diagnostic) : Bool :=
  dispatcher.settings.ruleMode diagnostic.code = .fix

/-- Everything offered for a request: the fixes of all relevant diagnostics, then the actions that
silence their rules. -/
def listFixes (dispatcher : Dispatcher) (diagnostics : List Diagnostic) (requested : Range)
    (document : Document) : List Fix :=
  let selected := dispatcher.selected diagnostics requested
  let fixable := selected.filter dispatcher.offersFixes
  let silenceable := selected.filter fun diagnostic =>
    dispatcher.settings.offersDisabling diagnostic.severity
  fixable.flatMap (dispatcher.ruleFixes · document) ++
    silenceable.flatMap (dispatcher.disableFixes · document)

/-- The first preferred fix with edits for a diagnostic, when its rule may be fixed. -/
def preferredFix? (dispatcher : Dispatcher) (diagnostic : Diagnostic) (document : Document) :
    Option Fix :=
  if dispatcher.offersFixes diagnostic then
    (dispatcher.ruleFixes diagnostic document).find? fun fix =>
      fix.preferred && !fix.edits.isEmpty
  else none

end Dispatcher

end LintRepair
