import LintRepair.Proofs.Directive
import LintRepair.Proofs.Provider
import LintRepair.Proofs.Repair.Annotation
import LintRepair.Proofs.Text.Search
import LintRepair.Registry
import Mathlib.Data.Option.Basic

/-!
# Repairs offer usable fixes

Most repairs replace the reported range or its line.  The others find their own places: on the line
before the range, behind it, or on a line that a search came upon.
-/

namespace LintRepair

/-- An import statement goes to the start of a line of the document, or behind its last one. -/
theorem Document.containsRange_importEdit (d : Document) (statement : Text) :
    d.containsRange (d.importEdit statement).range := by
  have last := d.lastLine_lt
  simp only [importEdit]
  split
  · exact containsRange_empty.mpr (isAddressable_lineEnd last)
  · have start : d.IsAddressable ⟨d.importLine, 0⟩ := isAddressable_lineStart (by omega)
    split
    · exact containsRange_empty.mpr start
    · exact containsRange_empty.mpr start

namespace Repair

variable {site : Site} (inside : site.document.containsRange site.range)

section IgnoreComment

theorem allows_removeCode (title code : Text) : site.Allows (removeCode site title code) := by
  refine .bind fun ⟨line, directive⟩ found => .bind fun e removal => .some ?_
  have on_line := (Document.directive?_of_nearestDirective? found).1
  have line_inside := Document.lt_lineCount_of_directive? on_line
  exact Site.isUsable_fix _ _ (Document.containsRange_removalEdit? line_inside removal)

theorem allows_unusedIgnore : site.Allows (unusedIgnore site) :=
  .bind fun _ _ => allows_removeCode _ _

theorem allows_unknownCode : site.Allows (unknownCode site) :=
  .bind fun _ _ => allows_removeCode _ _

theorem allows_untaggedIgnore : site.Allows (untaggedIgnore site) := by
  refine .bind fun ⟨line, directive⟩ found => .some (Site.isUsable_fix _ _ ?_)
  have on_line := (Document.directive?_of_nearestDirective? found).1
  exact Document.containsRange_deletionRange (Document.lt_lineCount_of_directive? on_line)

end IgnoreComment

section Binding

include inside

theorem allows_underscore (title : Option Text) :
    site.Allows (underscore site.diagnostic site.document title) :=
  .bind fun _ _ => .bind fun _ _ => .some (Fix.isUsable_ofEdit _ _ _ inside)

theorem isUsable_of_mem_unusedVariable :
    ∀ fix ∈ unusedVariable site, fix.isUsable site.document := by
  unfold unusedVariable
  split
  · exact List.forall_mem_nil _
  · refine List.forall_mem_append.mpr ⟨(allows_underscore inside none).toList, ?_⟩
    refine Site.Allows.toList (.bind fun line _ => .bind fun change _ => .some ?_)
    rw [Fix.isUsable_onRequest]
    exact Site.isUsable_fix _ _ (Document.containsRange_changeLine (Site.line_lt inside) change)

theorem allows_letToConst : site.Allows (letToConst site) :=
  .bind fun _ _ => .bind fun _ _ => .bind fun _ _ => .some (Site.isUsable_replaceLine inside _ _)

theorem allows_varToLet : site.Allows (varToLet site) :=
  .bind fun _ _ => .some (Site.isUsable_replaceLine inside _ _)

theorem allows_camelCase : site.Allows (camelCase site) :=
  .bind fun _ _ => .bind fun _ _ => .some (Site.isUsable_replaceRange inside _ _)

end Binding

section Annotation

theorem annotationStart?_eq_some {before : Text} {start : Nat}
    (found : annotationStart? before = some start) :
    ∃ front, front <+: before ∧ Text.byteSize front = start := by
  obtain ⟨name, name_found, rfl⟩ := Option.map_eq_some_iff.mp found
  exact ⟨_, (Text.trimEnd_isPrefix name).trans (Text.isPrefix_of_before?_trimEnd name_found), rfl⟩

include inside

theorem isAddressable_before_range {start : Nat} {front : Text}
    (front_leads : front <+: site.textBefore) (size : Text.byteSize front = start) :
    site.document.IsAddressable ⟨site.line, start⟩ :=
  size ▸ Document.isAddressable_of_isPrefix_textBefore inside front_leads

theorem allows_inferrableType : site.Allows (inferrableType site) := by
  refine .bind fun text _ => ?_
  split
  · exact .some (Site.isUsable_replaceRange inside _ _)
  · split
    · exact .some (Site.isUsable_fix _ _ inside)
    · refine .bind fun _ _ => .bind fun start found => .some (Site.isUsable_fix _ _ ?_)
      obtain ⟨front, front_leads, size⟩ := annotationStart?_eq_some found
      exact Document.containsRange_between (isAddressable_before_range inside front_leads size)
        (Document.containsRange_iff.mp inside).2

theorem containsRange_assertionRange? {range : Range} (found : assertionRange? site = some range) :
    site.document.containsRange range := by
  obtain ⟨_, single, found⟩ := Option.bind_eq_some_iff.mp found
  have one_line : site.range.start.line = site.range.stop.line :=
    of_decide_eq_true ((Option.guard_eq_some' _).mp single)
  have stop_inside := (Document.containsRange_iff.mp inside).2
  split at found
  · rename_i start start_found
    obtain rfl := Option.some.inj found
    obtain ⟨operand, gap, parts, -, -, size⟩ := exists_of_asStart? start_found
    have operand_leads : operand <+: site.textBefore := ⟨_, parts.symm⟩
    exact Document.containsRange_between (isAddressable_before_range inside operand_leads size)
      stop_inside
  · simp only [Option.bind_eq_bind, Option.bind_eq_some_iff] at found
    obtain ⟨start, start_found, length, end_found, same⟩ := found
    obtain rfl := Option.some.inj same
    obtain ⟨operator, parts, -, size⟩ := exists_of_angleStart? start_found
    obtain ⟨rest, behind, rfl⟩ := exists_of_angleEnd? end_found
    have operator_leads : operator <+: site.textBefore := ⟨_, parts.symm⟩
    rw [← List.append_assoc] at behind
    have end_inside := Document.isAddressable_of_isPrefix_textAfter inside ⟨_, behind.symm⟩
    rw [← one_line] at end_inside
    exact Document.containsRange_between (isAddressable_before_range inside operator_leads size)
      end_inside

theorem isUsable_of_mem_explicitAny : ∀ fix ∈ explicitAny site, fix.isUsable site.document := by
  unfold explicitAny
  split
  · refine List.forall_mem_append.mpr ⟨Site.Allows.toList (.map fun range found => ?_), ?_⟩
    · exact Site.isUsable_fix _ _ (containsRange_assertionRange? inside found)
    · simpa using Site.isUsable_replaceRange inside _ _
  · exact List.forall_mem_nil _

theorem allows_useInstead (hint : Text) : site.Allows (useInstead hint site.diagnostic) :=
  .map fun _ _ => Fix.isUsable_ofEdit _ _ _ inside

theorem allows_bannedType : site.Allows (bannedType site) :=
  .orElse (.bind fun _ _ => allows_useInstead inside _)
    (.bind fun _ _ => .bind fun _ _ => .some (Site.isUsable_replaceRange inside _ _))

end Annotation

section Markup

include inside

theorem allows_booleanAttribute : site.Allows (booleanAttribute site) := by
  refine .bind fun _ _ => .bind fun _ _ => .bind fun ⟨name, gap⟩ split => .bind fun _ _ => ?_
  refine .some (Site.isUsable_fix _ _ ?_)
  have name_leads : name <+: site.textBefore := ⟨_, (Text.eq_append_of_splitLast? split).symm⟩
  exact Document.containsRange_between
    (isAddressable_before_range inside ((Text.trimEnd_isPrefix name).trans name_leads) rfl)
    (Document.containsRange_iff.mp inside).2

theorem allows_curlyBraces : site.Allows (curlyBraces site) := by
  refine .bind fun text _ => ?_
  simp only
  split
  · exact .some (Site.isUsable_replaceRange inside _ _)
  · exact .bind fun _ _ => .bind fun _ _ => .bind fun _ _ =>
      .some (Site.isUsable_replaceRange inside _ _)

theorem allows_commentText : site.Allows (commentText site) :=
  .bind fun _ _ => .bind fun _ _ => .some (Site.isUsable_replaceRange inside _ _)

theorem allows_uselessFragment : site.Allows (uselessFragment site) :=
  .bind fun _ _ => .bind fun _ _ => .some (Site.isUsable_replaceRange inside _ _)

end Markup

section Expression

include inside

theorem isUsable_of_mem_looseEquality : ∀ fix ∈ looseEquality site, fix.isUsable site.document := by
  intro fix member
  obtain ⟨first, -, offered⟩ := List.mem_filterMap.mp member
  have allows : site.Allows (do
      let text ← Equality.strict? first (← site.text?)
      return site.replaceRange
        ("Replace " ++ [first, '='] ++ " with " ++ [first, '=', '=']) text) :=
    .bind fun _ _ => .bind fun _ _ => .some (Site.isUsable_replaceRange inside _ _)
  exact allows fix offered

theorem allows_booleanCast : site.Allows (booleanCast site) :=
  .bind fun _ _ => .bind fun _ _ => .some (Site.isUsable_replaceRange inside _ _)

theorem allows_newSymbol : site.Allows (newSymbol site) :=
  .orElse (.map fun _ _ => Site.isUsable_replaceRange inside _ _)
    (.map fun _ _ => Site.isUsable_replaceLine inside _ _)

theorem allows_assertedChain : site.Allows (assertedChain site) :=
  .bind fun _ _ => .some (Site.isUsable_replaceRange inside _ _)

theorem allows_octalLiteral : site.Allows (octalLiteral site) :=
  .bind fun _ _ => .bind fun _ _ => .some (Site.isUsable_replaceRange inside _ _)

theorem allows_prototypeCall : site.Allows (prototypeCall site) :=
  .bind fun _ _ => .some (Site.isUsable_replaceLine inside _ _)

theorem allows_sparseArray : site.Allows (sparseArray site) :=
  .bind fun _ _ => .some (Site.isUsable_replaceRange inside _ _)

theorem allows_thrownLiteral : site.Allows (thrownLiteral site) := by
  refine .bind fun text _ => ?_
  simp only
  split
  · exact .bind fun _ _ => .some (Site.isUsable_replaceRange inside _ _)
  · exact .bind fun _ _ => .some (Site.isUsable_replaceRange inside _ _)

end Expression

section ImportLine

theorem allows_hintedImport (hint : Text) : site.Allows (hintedImport site hint) :=
  .map fun statement _ =>
    Fix.isUsable_ofEdit _ _ _ (site.document.containsRange_importEdit statement)

theorem allows_processGlobal : site.Allows (processGlobal site) :=
  .bind fun hint _ => allows_hintedImport hint

private theorem quote_width {c : Char} (quote : Nesting.isQuote c) :
    c.utf8Size = 1 ∧ c ≠ '\n' := by
  simp only [Nesting.isQuote, Bool.or_eq_true, decide_eq_true_eq] at quote
  rcases quote with (rfl | rfl) | rfl <;> decide

/-- Where the range ends in a quote there is a column before its end, so the repair goes through. -/
theorem sloppyImport_usable :
    ∃ fixes, sloppyImport site = some fixes ∧ ∀ fix ∈ fixes, fix.isUsable site.document := by
  unfold sloppyImport
  split
  · exact ⟨[], rfl, List.forall_mem_nil _⟩
  · rename_i text quoted
    obtain ⟨covered, ends_in_quote⟩ := Option.filter_eq_some_iff.mp quoted
    simp only [Bool.and_eq_true, Option.any_eq_true] at ends_in_quote
    obtain ⟨-, c, last, quote⟩ := ends_in_quote
    obtain ⟨width, no_newline⟩ := quote_width quote
    obtain ⟨column_pos, place⟩ := Document.isAddressable_before_stop covered last no_newline
    rw [width] at column_pos place
    refine ⟨[site.fix "Add .ts extension to import"
      (.insert ⟨site.range.stop.line, site.range.stop.column - 1⟩ ".ts")], ?_, ?_⟩
    · exact Option.bind_eq_some_iff.mpr ⟨(), (Option.guard_eq_some' _).mpr column_pos, rfl⟩
    · simpa using Site.isUsable_fix _ _ (Document.containsRange_empty.mpr place)

include inside

theorem isUsable_of_mem_nodeGlobal : ∀ fix ∈ nodeGlobal site, fix.isUsable site.document := by
  unfold nodeGlobal
  split
  · exact List.forall_mem_nil _
  · exact List.forall_mem_append.mpr
      ⟨(allows_hintedImport _).toList, (allows_useInstead inside _).toList⟩

theorem allows_importAssertion : site.Allows (importAssertion site) :=
  .bind fun _ _ => .some (Site.isUsable_replaceLine inside _ _)

theorem allows_uselessRename : site.Allows (uselessRename site) :=
  .bind fun _ _ => .some (Site.isUsable_replaceLine inside _ _)

theorem isUsable_of_mem_typeOnlyImport :
    ∀ fix ∈ typeOnlyImport site, fix.isUsable site.document := by
  unfold typeOnlyImport
  split
  · exact List.forall_mem_nil _
  · refine List.forall_mem_append.mpr ⟨?_, ?_⟩
    · split
      · have start_inside := (Document.containsRange_iff.mp inside).1
        simpa using Site.isUsable_fix _ _ (Document.containsRange_empty.mpr start_inside)
      · exact List.forall_mem_nil _
    · exact Site.Allows.toList (.bind fun _ _ => .bind fun _ _ =>
        .some (Site.isUsable_replaceLine inside _ _))

theorem isUsable_of_mem_referenceComment :
    ∀ fix ∈ referenceComment site, fix.isUsable site.document := by
  unfold referenceComment
  split
  · exact List.forall_mem_nil _
  · intro fix member
    obtain ⟨valid, -, rfl⟩ := List.mem_map.mp member
    exact Site.isUsable_replaceRange inside _ _

end ImportLine

section Member

theorem debuggerStatement_leavesSuffix :
    Text.Recogniser.LeavesSuffix Member.debuggerStatement := by
  intro before s value rest recognised
  obtain ⟨behind, word_found, same⟩ := Option.bind_eq_some_iff.mp recognised
  obtain ⟨-, rfl⟩ := Prod.mk.inj (Option.some.inj same)
  have behind_suffix :=
    (Text.trimStart_isSuffix behind).trans (Text.isSuffix_of_afterWord? word_found)
  cases semicolon : Text.after? ";" (Text.trimStart behind) with
  | none => exact behind_suffix
  | some rest =>
      have rest_suffix : rest <:+ Text.trimStart behind :=
        ⟨_, (Text.after?_eq_some_iff.mp semicolon).symm⟩
      exact (Text.trimStart_isSuffix rest).trans (rest_suffix.trans behind_suffix)

include inside

theorem allows_superCall : site.Allows (superCall site) :=
  .bind fun _ _ => .some (Site.isUsable_deleteRange inside _)

theorem isUsable_debuggerStatement : (debuggerStatement site).isUsable site.document := by
  simp only [debuggerStatement]
  split
  · exact Site.isUsable_deleteLine inside _
  · refine Site.Allows.getD (.bind fun behind from_start => .map fun found searched => ?_)
      (Site.isUsable_deleteRange inside _)
    obtain ⟨⟨left, _⟩, cut, rfl⟩ := Option.map_eq_some_iff.mp from_start
    obtain ⟨line_eq, left_size⟩ := Text.cut?_eq_some_iff.mp cut
    obtain ⟨taken, parts⟩ := Text.eq_append_of_find? debuggerStatement_leavesSuffix searched
    have line_found := Site.line?_eq_lineText inside
    simp only at parts line_eq
    rw [line_eq, parts] at line_found
    refine Site.isUsable_fix _ _ (Document.containsRange_between (.of_line line_found ?_)
      (.of_line line_found ?_))
    · rw [← left_size, ← Text.byteSize_append]
      exact .of_isPrefix ⟨taken ++ found.rest, by simp⟩
    · rw [parts, Text.consumed_append, ← left_size, ← Text.byteSize_append]
      exact .of_isPrefix ⟨found.rest, by simp⟩

theorem allows_needlessAsync : site.Allows (needlessAsync site) :=
  .bind fun _ _ => .some (Site.isUsable_replaceLine inside _ _)

theorem allows_needlessGenerator : site.Allows (needlessGenerator site) :=
  .bind fun _ _ => .some (Site.isUsable_replaceLine inside _ _)

theorem allows_misusedNew : site.Allows (misusedNew site) := by
  refine .bind fun owner _ => ?_
  cases owner with
  | ofClass => exact .bind fun _ _ => .some (Site.isUsable_replaceLine inside _ _)
  | ofInterface => exact .bind fun _ _ => .some (Site.isUsable_replaceLine inside _ _)

end Member

end Repair

end LintRepair
