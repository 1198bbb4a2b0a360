import LintRepair.Diagnostic
import LintRepair.Edit

/-!
# Fixes

A fix is a titled set of edits that resolves one diagnostic, or an action for the host that changes
no text.
-/

namespace LintRepair

/-- What choosing a fix does. -/
inductive FixKind where
  /-- Its edits are applied. -/
  | quickFix
  /-- Its action is run. -/
  | empty
  deriving DecidableEq, Repr

/-- Something the host does for a fix. -/
inductive HostAction where
  /-- Shows an address. -/
  | openUrl (target : Text)
  deriving DecidableEq, Repr

/-- A way offered to resolve a diagnostic. -/
structure Fix where
  /-- What the fix is called. -/
  title : Text
  /-- What choosing it does. -/
  kind : FixKind
  /-- Its edits. -/
  edits : List Edit
  /-- Diagnostic it resolves. -/
  diagnostic : Diagnostic
  /-- Whether it may be applied without asking. -/
  preferred : Bool
  /-- Its action. -/
  action : Option HostAction
  deriving DecidableEq

namespace Fix

/-- A preferred fix made of edits. -/
def ofEdits (title : Text) (diagnostic : Diagnostic) (edits : List Edit) : Fix :=
  ⟨title, .quickFix, edits, diagnostic, true, none⟩

/-- A preferred fix made of one edit. -/
def ofEdit (title : Text) (diagnostic : Diagnostic) (edit : Edit) : Fix :=
  ofEdits title diagnostic [edit]

/-- A fix that only runs an action. -/
def ofAction (title : Text) (diagnostic : Diagnostic) (action : HostAction) : Fix :=
  ⟨title, .empty, [], diagnostic, false, some action⟩

/-- The same fix, to be applied only on request. -/
def onRequest (fix : Fix) : Fix := { fix with preferred := false }

/-- The fix that replaces the reported range. -/
def replaceRange (title : Text) (d : Diagnostic) (text : Text) : Fix :=
  ofEdit title d (.replace d.range text)

/-- The fix that replaces the line the reported range starts on. -/
def replaceLine (title : Text) (d : Diagnostic) (document : Document) (text : Text) : Fix :=
  ofEdit title d (.replace (document.lineRange d.range.start.line) text)

/-- The fix that deletes the reported range. -/
def deleteRange (title : Text) (d : Diagnostic) : Fix := ofEdit title d (.delete d.range)

/-- The fix that deletes the line the reported range starts on. -/
def deleteLine (title : Text) (d : Diagnostic) (document : Document) : Fix :=
  ofEdit title d (.delete (document.deletionRange d.range.start.line))

/-- Whether two edits of the fix overlap. -/
def hasOverlap (fix : Fix) : Bool := Edit.anyOverlap fix.edits

/-- The text of a document after the fix. -/
def applied? (fix : Fix) (document : Document) : Option Text := document.applyEdits? fix.edits

/-- Whether a fix can be applied: every range is addressable and no two edits overlap. -/
def isUsable (document : Document) (fix : Fix) : Bool :=
  fix.edits.all (fun edit => document.containsRange edit.range) && !fix.hasOverlap

end Fix

end LintRepair
