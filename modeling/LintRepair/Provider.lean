import LintRepair.Fix
import LintRepair.Settings.Basic

/-!
# Providers

A provider builds fixes for the rules it claims.  It sees one diagnostic in its document together
with the settings, and it may break down, which is told apart from offering nothing.
-/

namespace LintRepair

/-- Everything a provider may look at. -/
structure Site where
  /-- The diagnostic to be resolved. -/
  diagnostic : Diagnostic
  /-- The document it is about. -/
  document : Document
  /-- The settings in force. -/
  settings : Settings

namespace Site

/-- The reported range. -/
def range (site : Site) : Range := site.diagnostic.range

/-- The code of the violated rule. -/
def code (site : Site) : Text := site.diagnostic.code

/-- The suggested remedy. -/
def hint? (site : Site) : Option Text := site.diagnostic.hint

/-- The text under the reported range. -/
def text? (site : Site) : Option Text := site.document.textIn? site.range

/-- Index of the line the reported range starts on. -/
def line (site : Site) : Nat := site.range.start.line

/-- Text of the line the reported range starts on. -/
def lineText (site : Site) : Text := (site.document.line? site.line).getD []

/-- Text before the reported range on its first line. -/
def textBefore (site : Site) : Text := site.document.textBefore site.range

/-- A fix made of one edit. -/
def fix (site : Site) (title : Text) (edit : Edit) : Fix := .ofEdit title site.diagnostic edit

/-- The fix that replaces the reported range. -/
def replaceRange (site : Site) (title text : Text) : Fix :=
  .replaceRange title site.diagnostic text

/-- The fix that replaces the line the reported range starts on. -/
def replaceLine (site : Site) (title text : Text) : Fix :=
  .replaceLine title site.diagnostic site.document text

end Site

/-- A source of fixes for certain rules. -/
structure Provider where
  /-- Codes of the rules it claims; `*` claims every rule. -/
  codes : List Text
  /-- The fixes it builds at a site, nothing when it breaks down. -/
  build : Site → Option (List Fix)

namespace Provider

/-- The code that claims every rule. -/
def wildcard : Text := "*"

/-- A provider that never breaks down.  The repairs made into one cut a text only at places that a
search, a prefix or suffix, a trimming or a pattern found in that same text, and ask the document
for every range they read, so no cut is behind the end or inside of a character. -/
def total (codes : List Text) (repair : Site → List Fix) : Provider :=
  ⟨codes, fun site => some (repair site)⟩

/-- A provider that never breaks down and offers at most one fix for a single rule. -/
def single (code : Text) (repair : Site → Option Fix) : Provider :=
  total [code] fun site => (repair site).toList

/-- Whether a provider claims the rule of a diagnostic. -/
def claims (provider : Provider) (diagnostic : Diagnostic) : Bool :=
  provider.codes.any fun code => code = wildcard || code = diagnostic.code

/-- The fixes of a provider that can be applied to the document. -/
def usableFixes (provider : Provider) (site : Site) : List Fix :=
  ((provider.build site).getD []).filter (Fix.isUsable site.document)

end Provider

end LintRepair
