import LintRepair.Fix
import LintRepair.Report.Basic
import LintRepair.Wire.Fields

/-!
# The wire format

How ranges, diagnostics, fixes and the parts of a report are written as JSON values and read back.
Every value is written as an object with its fields in order.
-/

namespace LintRepair

namespace Position

/-- A position as JSON. -/
def toJson (p : Position) : Json :=
  .object [("line", .ofInt p.line), ("column", .ofInt p.column)]

/-- The position of a JSON value. -/
def ofJson? (value : Json) : Option Position := do
  match ← value.fields? [["line"], ["column"]] 2 with
  | [some line, some column] => return ⟨← line.natural?, ← column.natural?⟩
  | _ => none

end Position

namespace Range

/-- A range as JSON. -/
def toJson (r : Range) : Json := .object [("start", r.start.toJson), ("end", r.stop.toJson)]

/-- The range of a JSON value, collapsed when its end precedes its start. -/
def ofJson? (value : Json) : Option Range := do
  match ← value.fields? [["start"], ["end"]] 2 with
  | [some start, some stop] => return .between (← Position.ofJson? start) (← Position.ofJson? stop)
  | _ => none

end Range

namespace Edit

/-- An edit as JSON. -/
def toJson (e : Edit) : Json := .object [("range", e.range.toJson), ("new_text", .string e.text)]

/-- The edit of a JSON value. -/
def ofJson? (value : Json) : Option Edit := do
  match ← value.fields? [["range"], ["new_text"]] 2 with
  | [some range, some text] => return ⟨← Range.ofJson? range, ← text.text?⟩
  | _ => none

end Edit

namespace Severity

/-- A severity as JSON. -/
def toJson (s : Severity) : Json := .string s.name

/-- The severity of a JSON value. -/
def ofJson? (value : Json) : Option Severity := value.text? >>= ofName?

end Severity

namespace Diagnostic

/-- A diagnostic as JSON. -/
def toJson (d : Diagnostic) : Json :=
  .object [("code", .string d.code), ("message", .string d.message), ("range", d.range.toJson),
    ("severity", d.severity.toJson), ("hint", .ofText? d.hint), ("docs_url", .ofText? d.docsUrl),
    ("source", .string d.source)]

/-- The names of the fields of a diagnostic. -/
def fieldNames : List (List Text) :=
  [["code"], ["message"], ["range"], ["severity"], ["hint"], ["docs_url"], ["source"]]

/-- The diagnostic of a JSON value. -/
def ofJson? (value : Json) : Option Diagnostic := do
  match ← value.fields? fieldNames 7 with
  | [some code, some message, some range, some severity, hint, docsUrl, some source] =>
      return {
        code := ← code.text?
        message := ← message.text?
        range := ← Range.ofJson? range
        severity := ← Severity.ofJson? severity
        hint := ← Json.nullable? Json.text? hint
        docsUrl := ← Json.nullable? Json.text? docsUrl
        source := ← source.text? }
  | _ => none

end Diagnostic

namespace FixKind

/-- The name under which a kind is written. -/
def name : FixKind → Text
  | quickFix => "quick-fix"
  | empty => "empty"

/-- The kind of a JSON value. -/
def ofJson? (value : Json) : Option FixKind := do
  let s ← value.choice?
  if s = quickFix.name then return quickFix
  else if s = empty.name then return empty
  else none

end FixKind

namespace HostAction

/-- The name of the action that shows an address. -/
def openUrlName : Text := "open-url"

/-- An action as JSON. -/
def toJson : HostAction → Json
  | openUrl target => .object [("type", .string openUrlName), ("target", .string target)]

/-- The action of a JSON value. -/
def ofJson? (value : Json) : Option HostAction := do
  match ← value.fields? [["type"], ["target"]] 2 with
  | [some type, some target] =>
      guard ((← type.choice?) = openUrlName)
      return openUrl (← target.text?)
  | _ => none

end HostAction

namespace Fix

/-- A fix as JSON. -/
def toJson (fix : Fix) : Json :=
  .object [("title", .string fix.title), ("kind", .string fix.kind.name),
    ("edits", .array (fix.edits.map Edit.toJson)), ("diagnostic", fix.diagnostic.toJson),
    ("is_preferred", .bool fix.preferred),
    ("command", (fix.action.map HostAction.toJson).getD .null)]

/-- The names of the fields of a fix. -/
def fieldNames : List (List Text) :=
  [["title"], ["kind"], ["edits"], ["diagnostic"], ["is_preferred"], ["command"]]

/-- The fix of a JSON value. -/
def ofJson? (value : Json) : Option Fix := do
  match ← value.fields? fieldNames 6 with
  | [some title, some kind, some edits, some diagnostic, some preferred, action] =>
      return {
        title := ← title.text?
        kind := ← FixKind.ofJson? kind
        edits := ← (← edits.items?).mapM Edit.ofJson?
        diagnostic := ← Diagnostic.ofJson? diagnostic
        preferred := ← preferred.bool?
        action := ← Json.nullable? HostAction.ofJson? action }
  | _ => none

end Fix

namespace Report

namespace Place

/-- A place as JSON. -/
def toJson (p : Place) : Json :=
  .object [("line", .ofInt p.line.toInt), ("col", .ofInt p.col.toInt)]

/-- The place of a JSON value. -/
def ofJson? (value : Json) : Option Place := do
  match ← value.fields? [["line"], ["col"]] 2 with
  | [some line, some col] => return ⟨← line.int64?, ← col.int64?⟩
  | _ => none

end Place

namespace Span

/-- A span as JSON. -/
def toJson (s : Span) : Json := .object [("start", s.start.toJson), ("end", s.stop.toJson)]

/-- The span of a JSON value. -/
def ofJson? (value : Json) : Option Span := do
  match ← value.fields? [["start"], ["end"]] 2 with
  | [some start, some stop] => return ⟨← Place.ofJson? start, ← Place.ofJson? stop⟩
  | _ => none

end Span

namespace Entry

/-- An entry as JSON. -/
def toJson (e : Entry) : Json :=
  .object [("range", e.span.toJson), ("filename", .string e.filename),
    ("message", .string e.message), ("code", .string e.code), ("hint", .ofText? e.hint),
    ("docs", .ofText? e.docs), ("relatedInformation", .array (e.related.map .string))]

/-- The names of the fields of an entry; the notes go by two. -/
def fieldNames : List (List Text) :=
  [["range"], ["filename"], ["message"], ["code"], ["hint"], ["docs"],
    ["relatedInformation", "related"]]

/-- The entry of a JSON value.  The last three fields may be missing. -/
def ofJson? (value : Json) : Option Entry := do
  match ← value.fields? fieldNames 4 with
  | [some span, some filename, some message, some code, hint, docs, related] =>
      return {
        span := ← Span.ofJson? span
        filename := ← filename.text?
        message := ← message.text?
        code := ← code.text?
        hint := ← Json.nullable? Json.text? hint
        docs := ← Json.nullable? Json.text? docs
        related := ← (related.map Json.texts?).getD (some []) }
  | _ => none

end Entry

namespace Failure

/-- A failure as JSON. -/
def toJson (f : Failure) : Json :=
  .object [("file_path", .string f.path), ("message", .string f.message)]

/-- The failure of a JSON value. -/
def ofJson? (value : Json) : Option Failure := do
  match ← value.fields? [["file_path"], ["message"]] 2 with
  | [some path, some message] => return ⟨← path.text?, ← message.text?⟩
  | _ => none

end Failure

end Report

end LintRepair
