import LintRepair.Proofs.Repair.CaseClause
import LintRepair.Proofs.Repair.Usable
import LintRepair.Proofs.Suppression

/-!
# The built-in providers are sound

None of the built-in providers breaks down at a site whose range is addressable, and nothing that
they build there has to be withheld.
-/

namespace LintRepair

theorem Fix.isUsable_ofAction (title : Text) (diagnostic : Diagnostic) (action : HostAction)
    (document : Document) : (ofAction title diagnostic action).isUsable document := rfl

theorem Repair.isUsable_of_mem_general {site : Site}
    (inside : site.document.containsRange site.range) :
    ∀ fix ∈ general site, fix.isUsable site.document := by
  refine List.forall_mem_append.mpr ⟨?_, ?_⟩
  · exact Site.Allows.toList (.bind fun _ _ => allows_useInstead inside _)
  · exact List.forall_mem_singleton.mpr (Fix.isUsable_ofAction _ _ _ _)

namespace Registry

open Provider Repair

theorem isSound_of_mem_builtin : ∀ provider ∈ builtin.providers, provider.IsSound := by
  simp only [builtin, List.forall_mem_cons]
  exact ⟨
    isSound_single _ fun _ _ => allows_unusedIgnore,
    isSound_single _ fun _ _ => allows_untaggedIgnore,
    isSound_single _ fun _ _ => allows_unknownCode,
    isSound_total _ fun _ inside => isUsable_of_mem_unusedVariable inside,
    isSound_single _ fun _ inside => allows_letToConst inside,
    isSound_single _ fun _ inside => allows_varToLet inside,
    isSound_single _ fun _ inside => allows_camelCase inside,
    isSound_single _ fun _ inside => allows_inferrableType inside,
    isSound_single _ fun _ _ => allows_fallthrough,
    isSound_single _ fun _ _ => allows_caseDeclarations,
    isSound_single _ fun _ inside => allows_booleanAttribute inside,
    isSound_single _ fun _ inside => allows_curlyBraces inside,
    isSound_single _ fun _ inside => allows_commentText inside,
    isSound_single _ fun _ inside => allows_uselessFragment inside,
    isSound_total _ fun _ inside => isUsable_of_mem_looseEquality inside,
    isSound_single _ fun _ inside => allows_booleanCast inside,
    isSound_single _ fun _ inside => allows_newSymbol inside,
    isSound_single _ fun _ inside => allows_assertedChain inside,
    isSound_single _ fun _ inside => allows_octalLiteral inside,
    isSound_single _ fun _ inside => allows_prototypeCall inside,
    isSound_single _ fun _ inside => allows_sparseArray inside,
    isSound_single _ fun _ inside => allows_thrownLiteral inside,
    isSound_single _ fun _ inside => allows_bannedType inside,
    isSound_total _ fun _ inside => isUsable_of_mem_explicitAny inside,
    isSound_single _ fun _ inside => allows_misusedNew inside,
    isSound_single _ fun _ _ => allows_processGlobal,
    isSound_total _ fun _ inside => isUsable_of_mem_nodeGlobal inside,
    isSound_single _ fun _ inside => allows_importAssertion inside,
    fun _ _ => sloppyImport_usable,
    isSound_single _ fun _ inside => allows_uselessRename inside,
    isSound_total _ fun _ inside => isUsable_of_mem_typeOnlyImport inside,
    isSound_total _ fun _ inside => isUsable_of_mem_referenceComment inside,
    isSound_single _ fun _ inside => allows_superCall inside,
    isSound_single _ fun _ inside => .some (isUsable_debuggerStatement inside),
    isSound_single _ fun _ inside => .some (Site.isUsable_deleteRange inside _),
    isSound_single _ fun _ inside => allows_needlessAsync inside,
    isSound_single _ fun _ inside => allows_needlessGenerator inside,
    List.forall_mem_nil _⟩

/-- Every fix that is built in can be applied.  At a site with an addressable range no built-in
provider breaks down, neither of a rule nor the fallback nor the one that silences rules; the edits
of every fix have addressable ranges of which no two overlap, and no fix is withheld. -/
theorem builtin_fixes_apply {site : Site} (inside : site.document.containsRange site.range) :
    ∀ provider ∈ builtin.all ++ [Suppression.provider], ∃ fixes,
      provider.build site = some fixes ∧ provider.usableFixes site = fixes ∧
      ∀ fix ∈ fixes, (∀ e ∈ fix.edits, site.document.containsRange e.range) ∧
        fix.hasOverlap = false ∧ (fix.applied? site.document).isSome := by
  have sound : ∀ provider ∈ builtin.all ++ [Suppression.provider], provider.IsSound := by
    simp only [all, List.forall_mem_append, List.forall_mem_singleton]
    refine ⟨⟨isSound_of_mem_builtin, ?_⟩, ?_⟩
    · exact isSound_total _ fun _ inside => isUsable_of_mem_general inside
    · exact isSound_total _ fun _ inside => Suppression.isUsable_of_mem_actions inside
  intro provider member
  obtain ⟨fixes, built, usable⟩ := sound provider member site inside
  refine ⟨fixes, built, ?_, fun fix fix_member => ?_⟩
  · have nothing_withheld := (sound provider member).usableFixes_eq inside
    exact Option.some.inj (nothing_withheld.symm.trans built)
  · have fix_usable := usable fix fix_member
    obtain ⟨edits_inside, disjoint⟩ := Fix.isUsable_iff.mp fix_usable
    refine ⟨edits_inside, Edit.anyOverlap_eq_false_iff.mpr disjoint, ?_⟩
    rw [← Fix.isUsable_eq_isSome_applied?, fix_usable]

/-- A declaration by `var` that is reported from its keyword to its end. -/
def varSite : Site where
  diagnostic := ⟨"no-var", "`var` is not allowed", .onLine 0 0 10, .error, none, none, "deno-lint"⟩
  document := .ofText "var x = 1;"
  settings := .standard

theorem builtin_fixes_apply_to_var :
    varSite.document.containsRange varSite.range ∧
    ∀ provider ∈ builtin.all ++ [Suppression.provider], ∃ fixes,
      provider.build varSite = some fixes ∧ provider.usableFixes varSite = fixes ∧
      ∀ fix ∈ fixes, (∀ e ∈ fix.edits, varSite.document.containsRange e.range) ∧
        fix.hasOverlap = false ∧ (fix.applied? varSite.document).isSome :=
  have inside : varSite.document.containsRange varSite.range := by decide +kernel
  ⟨inside, builtin_fixes_apply inside⟩

/-- There are 37 providers of rules; the fallback and the provider that silences rules come on
top. -/
example : builtin.providers.length = 37 := rfl

end Registry

end LintRepair
