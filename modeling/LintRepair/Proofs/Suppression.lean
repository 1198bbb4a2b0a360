import LintRepair.Proofs.Directive.Rewriting
import LintRepair.Proofs.Provider
import LintRepair.Suppression

/-!
# Silencing a rule in a document

The directives and comments that are found for silencing a rule are on lines of the document, so
both actions can be applied.
-/

namespace LintRepair

namespace Suppression

theorem lineDirective?_le {d : Document} {line found : Nat} {directive : Directive}
    (above : lineDirective? d line = some (found, directive)) : found ≤ line := by
  obtain ⟨⟨passed, _⟩, -, same⟩ := Option.map_eq_some_iff.mp above
  obtain ⟨rfl, -⟩ := Prod.mk.inj same
  omega

/-- The line that a header points at: that of its directive, or the last of its comments. -/
def Header.line? : Header → Option Nat
  | .directive line _ => some line
  | .comments last => last

theorem scanHeader_line_lt {index bound : Nat} {inComment : Bool} {last : Option Nat}
    {lines : List Text} (lines_fit : index + lines.length ≤ bound)
    (last_fits : ∀ line ∈ last, line < bound) :
    ∀ line ∈ (scanHeader index inComment last lines).line?, line < bound := by
  induction lines generalizing index inComment last with
  | nil => exact last_fits
  | cons text lines ih =>
      rw [List.length_cons] at lines_fit
      have rest_fits : index + 1 + lines.length ≤ bound := by omega
      have index_fits : ∀ line ∈ some index, line < bound := by
        simp only [Option.mem_some, forall_eq']
        omega
      rw [scanHeader]
      split
      · exact ih rest_fits index_fits
      · split
        · split
          · exact index_fits
          · exact last_fits
        · split
          · exact ih rest_fits index_fits
          · split
            · exact ih rest_fits index_fits
            · split
              · exact ih rest_fits last_fits
              · exact last_fits

/-- The line that the header of a document points at is in the document. -/
theorem header_line_lt {d : Document} {line : Nat} (found : line ∈ (header d).line?) :
    line < d.lineCount := by
  refine scanHeader_line_lt ?_ (by simp) line found
  simp only [List.length_map, List.length_take, Document.lineCount]
  omega

theorem containsRange_extend? {d : Document} {line : Nat} {directive : Directive} {code : Text}
    {e : Edit} (inside : line < d.lineCount) (extended : extend? d line directive code = some e) :
    d.containsRange e.range := by
  obtain ⟨text, -, rfl⟩ := Option.map_eq_some_iff.mp extended
  exact Document.containsRange_lineRange inside

/-- A directive that a code is added to is read with that code from its line. -/
theorem exists_applied_extend? {d : Document} {line : Nat} {directive : Directive} {code : Text}
    {e : Edit} (on_line : d.directive? line = some directive) (isToken : Text.IsToken code)
    (extended : extend? d line directive code = some e) :
    ∃ text written, d.applyEdits? [e] = some text ∧
      (Document.ofText text).texts = d.texts.set line written ∧
      Directive.parse? written = some { directive with codes := directive.codes ++ [code] } := by
  obtain ⟨_, with_code, rfl⟩ := Option.map_eq_some_iff.mp extended
  obtain ⟨-, rfl⟩ := Directive.withCode?_eq_some_iff.mp with_code
  obtain ⟨_, -, parsed⟩ := Option.bind_eq_some_iff.mp on_line
  have wellFormed := (Directive.isWellFormed_of_parse? parsed).add isToken
  obtain ⟨text, applied, texts_eq, -⟩ := Document.exists_recoded on_line wellFormed.isToken
  exact ⟨text, _, applied, texts_eq, wellFormed.parse?_render⟩

variable {site : Site} (inside : site.document.containsRange site.range)

include inside in
theorem containsRange_lineEdit? {e : Edit} (silenced : lineEdit? site = some e) :
    site.document.containsRange e.range := by
  have line_inside := Site.line_lt inside
  unfold lineEdit? at silenced
  split at silenced
  · rename_i line directive found
    have found_above := lineDirective?_le found
    exact containsRange_extend? (by omega) silenced
  · obtain rfl := Option.some.inj silenced
    exact Document.containsRange_empty.mpr (Document.isAddressable_lineStart line_inside)

theorem containsRange_fileEdit? {e : Edit} (silenced : fileEdit? site = some e) :
    site.document.containsRange e.range := by
  have header_inside (line : Nat) (found : line ∈ (header site.document).line?) :
      line < site.document.lineCount := header_line_lt found
  simp only [fileEdit?] at silenced
  split at silenced
  · rename_i line directive header_eq
    rw [header_eq] at header_inside
    exact containsRange_extend? (header_inside line rfl) silenced
  · rename_i line header_eq
    rw [header_eq] at header_inside
    obtain rfl := Option.some.inj silenced
    exact Document.containsRange_insertAfterLine (header_inside line rfl) _
  · obtain rfl := Option.some.inj silenced
    exact Document.containsRange_empty.mpr
      (Document.isAddressable_lineStart site.document.lineCount_pos)

include inside in
/-- The actions that silence a rule can be applied. -/
theorem isUsable_of_mem_actions : ∀ fix ∈ actions site, fix.isUsable site.document := by
  unfold actions
  split
  · exact List.forall_mem_nil _
  · refine List.forall_mem_append.mpr ⟨Site.Allows.toList ?_, Site.Allows.toList ?_⟩
    · refine .map fun e silenced => ?_
      rw [Fix.isUsable_onRequest]
      exact Site.isUsable_fix _ _ (containsRange_lineEdit? inside silenced)
    · refine .map fun e silenced => ?_
      rw [Fix.isUsable_onRequest]
      exact Site.isUsable_fix _ _ (containsRange_fileEdit? silenced)

end Suppression

end LintRepair
