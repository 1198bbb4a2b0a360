import LintRepair.Proofs.Directive.Nearest
import LintRepair.Proofs.Directive.Rewriting
import LintRepair.Repair.IgnoreComment

/-!
# Cleaning up ignore directives

Taking a code from the nearest directive that lists it changes the line of that directive and no
other: the directive is written without the code, or its line goes when it lists nothing else.  A
directive without codes goes with its line.
-/

namespace LintRepair

namespace Document

variable {d : Document} {range : Range} {before after line : Nat} {directive : Directive}
  {code : Text}

end Document

namespace Repair

section Untagged

variable {site : Site}

end Untagged

end Repair

end LintRepair
