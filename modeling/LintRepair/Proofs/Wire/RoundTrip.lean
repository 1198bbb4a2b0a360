import LintRepair.Wire.Basic
import LintRepair.Proofs.Document.Range
import LintRepair.Proofs.Wire.Fields

/-!
# The wire format

Every value of the wire is carried by its text.  Positions are made of natural numbers here and of
64-bit words on the wire, so it is those that fit; the numbers of the lint tool are words already.
The order of a range survives the wire in both directions: a range given backwards is collapsed when
it is read, and a collapsed range is written and read as it is.

When a record is read at all is said once: for the records of two fields by `Wire.pair_eq_some`, for
each longer one by a lemma on the fields that its reader finds and what it reads each of them as.
Both directions of the wire follow from these.
-/

namespace LintRepair

open Wire

/-! ### What fits -/

/-- A position that fits the wire: both coordinates are 64-bit words. -/
structure Position.Fits (p : Position) : Prop where
  /-- The line is a word. -/
  line : p.line < UInt64.size
  /-- The column is a word. -/
  column : p.column < UInt64.size

/-- A range that fits the wire: in order, and between positions that fit. -/
structure Range.Fits (r : Range) : Prop where
  /-- The end does not precede the start. -/
  ordered : r.start ≤ r.stop
  /-- The start fits. -/
  start : r.start.Fits
  /-- The end fits. -/
  stop : r.stop.Fits

/-- An edit that fits the wire. -/
def Edit.Fits (e : Edit) : Prop := e.range.Fits

/-- A diagnostic that fits the wire. -/
def Diagnostic.Fits (d : Diagnostic) : Prop := d.range.Fits

/-- A fix that fits the wire, with its edits and its diagnostic. -/
structure Fix.Fits (fix : Fix) : Prop where
  /-- The edits fit. -/
  edits : ∀ e ∈ fix.edits, e.Fits
  /-- The diagnostic fits. -/
  diagnostic : fix.diagnostic.Fits

/-! ### Positions, ranges and edits -/

theorem Position.carries : Carries toJson ofJson? Fits where
  read_write p fits :=
    pair_eq_some.mpr ⟨.ofInt p.line, .ofInt p.column, p.line, p.column, rfl,
      carries_natural.read_write p.line fits.line,
      carries_natural.read_write p.column fits.column, rfl⟩
  fits_of_read value p given := by
    obtain ⟨_, _, line, column, -, readLine, readColumn, rfl⟩ := pair_eq_some.mp given
    exact ⟨carries_natural.fits_of_read _ line readLine,
      carries_natural.fits_of_read _ column readColumn⟩

theorem Range.between_fits {p q : Position} (start : p.Fits) (stop : q.Fits) :
    (between p q).Fits := by
  refine ⟨(between p q).ordered, by rwa [start_between], ?_⟩
  rw [stop_between_eq]
  split
  · exact start
  · exact stop

/-- The ends of a range as JSON, in either order. -/
def Range.endsToJson (p q : Position) : Json := .object [("start", p.toJson), ("end", q.toJson)]

/-- From two positions the range between them is read. -/
theorem Range.ofJson?_endsToJson {p q : Position} (start : p.Fits) (stop : q.Fits) :
    ofJson? (endsToJson p q) = some (between p q) :=
  pair_eq_some.mpr ⟨p.toJson, q.toJson, p, q, rfl, Position.carries.read_write p start,
    Position.carries.read_write q stop, rfl⟩

theorem Range.carries : Carries toJson ofJson? Fits where
  read_write r fits := by
    have read := ofJson?_endsToJson fits.start fits.stop
    rwa [between_start_stop] at read
  fits_of_read value r given := by
    obtain ⟨_, _, p, q, -, start, stop, rfl⟩ := pair_eq_some.mp given
    exact between_fits (Position.carries.fits_of_read _ p start)
      (Position.carries.fits_of_read _ q stop)

theorem Edit.carries : Carries toJson ofJson? Fits where
  read_write e fits :=
    pair_eq_some.mpr ⟨e.range.toJson, .string e.text, e.range, e.text, rfl,
      Range.carries.read_write e.range fits, rfl, rfl⟩
  fits_of_read value e given := by
    obtain ⟨_, _, range, text, -, readRange, -, rfl⟩ := pair_eq_some.mp given
    exact Range.carries.fits_of_read _ range readRange

/-! ### Diagnostics -/

theorem Severity.carries : Carries toJson ofJson? (fun _ => True) where
  read_write s _ := by cases s <;> rfl
  fits_of_read _ _ _ := trivial

theorem Diagnostic.ofJson?_eq_some {value : Json} {d : Diagnostic} :
    ofJson? value = some d ↔ ∃ code message range severity hint docsUrl source,
      value.fields? fieldNames 7 = some [some code, some message, some range, some severity,
          hint, docsUrl, some source]
        ∧ code.text? = some d.code ∧ message.text? = some d.message
        ∧ Range.ofJson? range = some d.range ∧ Severity.ofJson? severity = some d.severity
        ∧ Json.nullable? Json.text? hint = some d.hint
        ∧ Json.nullable? Json.text? docsUrl = some d.docsUrl
        ∧ source.text? = some d.source := by
  constructor
  · intro given
    obtain ⟨fields, record, given⟩ := Option.bind_eq_some_iff.mp given
    split at given
    · simp only [Option.bind_eq_bind, Option.bind_eq_some_iff, Option.pure_def] at given
      obtain ⟨_, code, _, message, _, range, _, severity, _, hint, _, docsUrl, _, source, ⟨⟩⟩ :=
        given
      exact ⟨_, _, _, _, _, _, _, record, code, message, range, severity, hint, docsUrl, source⟩
    · cases given
  · rintro ⟨_, _, _, _, _, _, _, record, code, message, range, severity, hint, docsUrl, source⟩
    simp only [ofJson?, record, code, message, range, severity, hint, docsUrl, source,
      Option.bind_eq_bind, Option.bind_some, Option.pure_def]

theorem Diagnostic.carries : Carries toJson ofJson? Fits where
  read_write d fits :=
    ofJson?_eq_some.mpr ⟨.string d.code, .string d.message, d.range.toJson, d.severity.toJson,
      some (.ofText? d.hint), some (.ofText? d.docsUrl), .string d.source, rfl, rfl, rfl,
      Range.carries.read_write d.range fits, Severity.carries.read_write d.severity trivial,
      Wire.nullable?_ofText? d.hint, Wire.nullable?_ofText? d.docsUrl, rfl⟩
  fits_of_read value d given := by
    obtain ⟨_, _, _, _, _, _, _, -, -, -, range, -⟩ := ofJson?_eq_some.mp given
    exact Range.carries.fits_of_read _ d.range range

/-! ### Fixes -/

theorem FixKind.ofJson?_name (kind : FixKind) : ofJson? (.string kind.name) = some kind := by
  cases kind <;> rfl

theorem HostAction.nullable?_toJson (action : Option HostAction) :
    Json.nullable? ofJson? (some ((action.map toJson).getD .null)) = some action := by
  cases action with
  | none => rfl
  | some action =>
      cases action
      rfl

theorem Fix.ofJson?_eq_some {value : Json} {fix : Fix} :
    ofJson? value = some fix ↔ ∃ title kind edits diagnostic preferred action,
      value.fields? fieldNames 6 = some [some title, some kind, some edits, some diagnostic,
          some preferred, action]
        ∧ title.text? = some fix.title ∧ FixKind.ofJson? kind = some fix.kind
        ∧ (edits.items? >>= List.mapM Edit.ofJson?) = some fix.edits
        ∧ Diagnostic.ofJson? diagnostic = some fix.diagnostic
        ∧ preferred.bool? = some fix.preferred
        ∧ Json.nullable? HostAction.ofJson? action = some fix.action := by
  constructor
  · intro given
    obtain ⟨fields, record, given⟩ := Option.bind_eq_some_iff.mp given
    split at given
    · simp only [Option.bind_eq_bind, Option.bind_eq_some_iff, Option.pure_def] at given
      obtain ⟨_, title, _, kind, _, items, _, edits, _, diagnostic, _, preferred, _, action, ⟨⟩⟩ :=
        given
      exact ⟨_, _, _, _, _, _, record, title, kind, Option.bind_eq_some_iff.mpr ⟨_, items, edits⟩,
        diagnostic, preferred, action⟩
    · cases given
  · rintro ⟨_, _, _, _, _, _, record, title, kind, edits, diagnostic, preferred, action⟩
    obtain ⟨_, items, edits⟩ := Option.bind_eq_some_iff.mp edits
    simp only [ofJson?, record, title, kind, items, edits, diagnostic, preferred, action,
      Option.bind_eq_bind, Option.bind_some, Option.pure_def]

theorem Fix.carries : Carries toJson ofJson? Fits where
  read_write fix fits :=
    ofJson?_eq_some.mpr ⟨.string fix.title, .string fix.kind.name,
      .array (fix.edits.map Edit.toJson), fix.diagnostic.toJson, .bool fix.preferred,
      some ((fix.action.map HostAction.toJson).getD .null), rfl, rfl, fix.kind.ofJson?_name,
      Edit.carries.list.read_write fix.edits fits.edits,
      Diagnostic.carries.read_write fix.diagnostic fits.diagnostic, rfl,
      HostAction.nullable?_toJson fix.action⟩
  fits_of_read value fix given := by
    obtain ⟨_, _, _, _, _, _, -, -, -, edits, diagnostic, -⟩ := ofJson?_eq_some.mp given
    exact ⟨Edit.carries.list.fits_of_read _ fix.edits edits,
      Diagnostic.carries.fits_of_read _ fix.diagnostic diagnostic⟩

/-! ### Parts of a report -/

namespace Report

theorem Place.ofJson?_toJson (p : Place) : ofJson? p.toJson = some p :=
  pair_eq_some.mpr ⟨.ofInt p.line.toInt, .ofInt p.col.toInt, p.line, p.col, rfl,
    carries_int64.read_write p.line trivial, carries_int64.read_write p.col trivial, rfl⟩

theorem Span.ofJson?_toJson (s : Span) : ofJson? s.toJson = some s :=
  pair_eq_some.mpr ⟨s.start.toJson, s.stop.toJson, s.start, s.stop, rfl, s.start.ofJson?_toJson,
    s.stop.ofJson?_toJson, rfl⟩

theorem Failure.carries : Carries toJson ofJson? (fun _ => True) where
  read_write f _ :=
    pair_eq_some.mpr ⟨.string f.path, .string f.message, f.path, f.message, rfl, rfl, rfl, rfl⟩
  fits_of_read _ _ _ := trivial

theorem Entry.ofJson?_eq_some {value : Json} {e : Entry} :
    ofJson? value = some e ↔ ∃ span filename message code hint docs related,
      value.fields? fieldNames 4 = some [some span, some filename, some message, some code,
          hint, docs, related]
        ∧ Span.ofJson? span = some e.span ∧ filename.text? = some e.filename
        ∧ message.text? = some e.message ∧ code.text? = some e.code
        ∧ Json.nullable? Json.text? hint = some e.hint
        ∧ Json.nullable? Json.text? docs = some e.docs
        ∧ (related.map Json.texts?).getD (some []) = some e.related := by
  constructor
  · intro given
    obtain ⟨_, record, given⟩ := Option.bind_eq_some_iff.mp given
    split at given
    · simp only [Option.bind_eq_bind, Option.bind_eq_some_iff, Option.pure_def] at given
      obtain ⟨_, span, _, filename, _, message, _, code, _, hint, _, docs, _, related, ⟨⟩⟩ := given
      exact ⟨_, _, _, _, _, _, _, record, span, filename, message, code, hint, docs, related⟩
    · cases given
  · rintro ⟨_, _, _, _, _, _, _, record, span, filename, message, code, hint, docs, related⟩
    simp only [ofJson?, record, span, filename, message, code, hint, docs, related,
      Option.bind_eq_bind, Option.bind_some, Option.pure_def]

theorem Entry.carries : Carries toJson ofJson? (fun _ => True) where
  read_write e _ :=
    ofJson?_eq_some.mpr ⟨e.span.toJson, .string e.filename, .string e.message, .string e.code,
      some (.ofText? e.hint), some (.ofText? e.docs), some (.array (e.related.map .string)), rfl,
      e.span.ofJson?_toJson, rfl, rfl, rfl, nullable?_ofText? e.hint, nullable?_ofText? e.docs,
      carries_text.list.read_write e.related fun _ _ => trivial⟩
  fits_of_read _ _ _ := trivial

end Report

/-! ### The whole format -/

/-- Decoding undoes encoding for every type of the wire, what is decoded fits and survives another
round, and two ends in either order are decoded to a range that starts at the first. -/
theorem Wire.decoding_undoes_encoding :
    RoundTrips Range.toJson Range.ofJson? Range.Fits ∧
    RoundTrips Edit.toJson Edit.ofJson? Edit.Fits ∧
    RoundTrips Diagnostic.toJson Diagnostic.ofJson? Diagnostic.Fits ∧
    RoundTrips Fix.toJson Fix.ofJson? Fix.Fits ∧
    RoundTrips Severity.toJson Severity.ofJson? (fun _ => True) ∧
    RoundTrips Report.Entry.toJson Report.Entry.ofJson? (fun _ => True) ∧
    RoundTrips Report.Failure.toJson Report.Failure.ofJson? (fun _ => True) ∧
    ∀ p q : Position, p.Fits → q.Fits →
      ∃ r, decode? Range.ofJson? (Range.endsToJson p q).compact = some r ∧
        r.start = p ∧ r.stop = if q < p then p else q := by
  refine ⟨Range.carries.roundTrips, Edit.carries.roundTrips, Diagnostic.carries.roundTrips,
    Fix.carries.roundTrips, Severity.carries.roundTrips, Report.Entry.carries.roundTrips,
    Report.Failure.carries.roundTrips, ?_⟩
  intro p q start stop
  refine ⟨.between p q, ?_, Range.start_between p q, Range.stop_between_eq p q⟩
  rw [decode?_compact, Range.ofJson?_endsToJson start stop]

/-- A fix whose texts hold quotes, backslashes, controls and letters beyond ASCII. -/
def quotedFix : Fix where
  title := "Replace \"a\\b\"\n\x01 \u00e9 💡"
  kind := .quickFix
  edits := [.replace (.onLine 2 1 4) "'\t'", .delete (.onLine 3 0 9)]
  diagnostic := ⟨"no-var", "\"var\"", .onLine 2 1 4, .warning, some "C:\\x", none, "deno-lint"⟩
  preferred := true
  action := some (.openUrl "https://docs.deno.com/")

theorem Wire.decoding_undoes_encoding_of_quoted :
    quotedFix.Fits ∧ decode? Fix.ofJson? (encode Fix.toJson quotedFix) = some quotedFix ∧
    ∃ r, decode? Range.ofJson? (Range.endsToJson ⟨3, 1⟩ ⟨0, 0⟩).compact = some r ∧
      r.start = ⟨3, 1⟩ ∧ r.stop = ⟨3, 1⟩ := by
  obtain ⟨-, -, -, fixes, -, -, -, ends⟩ := decoding_undoes_encoding
  have replaced : (Range.onLine 2 1 4).Fits :=
    Range.between_fits ⟨by decide, by decide⟩ ⟨by decide, by decide⟩
  have deleted : (Range.onLine 3 0 9).Fits :=
    Range.between_fits ⟨by decide, by decide⟩ ⟨by decide, by decide⟩
  have fits : quotedFix.Fits :=
    ⟨List.forall_mem_cons.mpr ⟨replaced, List.forall_mem_singleton.mpr deleted⟩, replaced⟩
  refine ⟨fits, fixes.decode_encode quotedFix fits, ?_⟩
  exact ends ⟨3, 1⟩ ⟨0, 0⟩ ⟨by decide, by decide⟩ ⟨by decide, by decide⟩

end LintRepair
