import LintRepair.Proofs.Provider
import LintRepair.Registry
import Mathlib.Data.Option.Basic

/-!
# What a fix is for

Every built-in provider builds its fixes for the diagnostic that it is asked about, at any site and
whether or not they can be applied there.
-/

namespace LintRepair

namespace Site

/-- Whatever is offered is for the diagnostic of the site. -/
def Resolves (site : Site) (offer : Option Fix) : Prop :=
  Fix.Offered (·.diagnostic = site.diagnostic) offer

end Site

namespace Provider

/-- At every site the provider builds fixes only for the diagnostic of the site. -/
def IsDirect (provider : Provider) : Prop :=
  ∀ site fixes, provider.build site = some fixes → ∀ fix ∈ fixes, fix.diagnostic = site.diagnostic

theorem isDirect_total (codes : List Text) {repair : Site → List Fix}
    (direct : ∀ site : Site, ∀ fix ∈ repair site, fix.diagnostic = site.diagnostic) :
    (total codes repair).IsDirect := by
  intro site fixes built
  obtain rfl := Option.some.inj built
  exact direct site

theorem isDirect_single (code : Text) {repair : Site → Option Fix}
    (resolves : ∀ site : Site, site.Resolves (repair site)) : (single code repair).IsDirect :=
  isDirect_total [code] fun site => (resolves site).toList

theorem IsDirect.diagnostic_eq {provider : Provider} (direct : provider.IsDirect) {site : Site}
    {fix : Fix} (member : fix ∈ provider.usableFixes site) : fix.diagnostic = site.diagnostic := by
  have built_member := (List.mem_filter.mp member).1
  cases built : provider.build site with
  | none => simp [built] at built_member
  | some fixes =>
      rw [built, Option.getD_some] at built_member
      exact direct site fixes built fix built_member

end Provider

namespace Repair

variable (site : Site)

section IgnoreComment

theorem resolves_removeCode (title code : Text) : site.Resolves (removeCode site title code) :=
  .bind fun _ _ => .bind fun _ _ => .some rfl

theorem resolves_unusedIgnore : site.Resolves (unusedIgnore site) :=
  .bind fun _ _ => resolves_removeCode site _ _

theorem resolves_unknownCode : site.Resolves (unknownCode site) :=
  .bind fun _ _ => resolves_removeCode site _ _

theorem resolves_untaggedIgnore : site.Resolves (untaggedIgnore site) :=
  .bind fun _ _ => .some rfl

end IgnoreComment

section Binding

theorem resolves_underscore (document : Document) (title : Option Text) :
    site.Resolves (underscore site.diagnostic document title) :=
  .bind fun _ _ => .bind fun _ _ => .some rfl

theorem diagnostic_of_mem_unusedVariable :
    ∀ fix ∈ unusedVariable site, fix.diagnostic = site.diagnostic := by
  unfold unusedVariable
  split
  · exact List.forall_mem_nil _
  · refine List.forall_mem_append.mpr ⟨(resolves_underscore site _ none).toList, ?_⟩
    exact Fix.Offered.toList (.bind fun _ _ => .bind fun _ _ => .some rfl)

theorem resolves_letToConst : site.Resolves (letToConst site) :=
  .bind fun _ _ => .bind fun _ _ => .bind fun _ _ => .some rfl

theorem resolves_varToLet : site.Resolves (varToLet site) := .bind fun _ _ => .some rfl

theorem resolves_camelCase : site.Resolves (camelCase site) :=
  .bind fun _ _ => .bind fun _ _ => .some rfl

end Binding

section Annotation

theorem resolves_inferrableType : site.Resolves (inferrableType site) := by
  refine .bind fun text _ => ?_
  split
  · exact .some rfl
  · split
    · exact .some rfl
    · exact .bind fun _ _ => .bind fun _ _ => .some rfl

theorem diagnostic_of_mem_explicitAny :
    ∀ fix ∈ explicitAny site, fix.diagnostic = site.diagnostic := by
  unfold explicitAny
  split
  · refine List.forall_mem_append.mpr ⟨Fix.Offered.toList (.map fun _ _ => rfl), ?_⟩
    exact List.forall_mem_singleton.mpr rfl
  · exact List.forall_mem_nil _

theorem resolves_useInstead (hint : Text) : site.Resolves (useInstead hint site.diagnostic) :=
  .map fun _ _ => rfl

theorem resolves_bannedType : site.Resolves (bannedType site) :=
  .orElse (.bind fun _ _ => resolves_useInstead site _)
    (.bind fun _ _ => .bind fun _ _ => .some rfl)

end Annotation

section CaseClause

theorem resolves_fallthrough : site.Resolves (fallthrough site) :=
  .bind fun _ _ => .bind fun _ _ => .bind fun _ _ => .bind fun _ _ => .some rfl

theorem resolves_caseDeclarations : site.Resolves (caseDeclarations site) :=
  .bind fun _ _ => .bind fun _ _ => .bind fun _ _ => .bind fun _ _ => .some rfl

end CaseClause

section Markup

theorem resolves_booleanAttribute : site.Resolves (booleanAttribute site) :=
  .bind fun _ _ => .bind fun _ _ => .bind fun _ _ => .bind fun _ _ => .some rfl

theorem resolves_curlyBraces : site.Resolves (curlyBraces site) := by
  refine .bind fun text _ => ?_
  simp only
  split
  · exact .some rfl
  · exact .bind fun _ _ => .bind fun _ _ => .bind fun _ _ => .some rfl

theorem resolves_commentText : site.Resolves (commentText site) :=
  .bind fun _ _ => .bind fun _ _ => .some rfl

theorem resolves_uselessFragment : site.Resolves (uselessFragment site) :=
  .bind fun _ _ => .bind fun _ _ => .some rfl

end Markup

section Expression

theorem diagnostic_of_mem_looseEquality :
    ∀ fix ∈ looseEquality site, fix.diagnostic = site.diagnostic := by
  intro fix member
  obtain ⟨first, -, offered⟩ := List.mem_filterMap.mp member
  have resolves : site.Resolves (do
      let text ← Equality.strict? first (← site.text?)
      return site.replaceRange
        ("Replace " ++ [first, '='] ++ " with " ++ [first, '=', '=']) text) :=
    .bind fun _ _ => .bind fun _ _ => .some rfl
  exact resolves fix offered

theorem resolves_booleanCast : site.Resolves (booleanCast site) :=
  .bind fun _ _ => .bind fun _ _ => .some rfl

theorem resolves_newSymbol : site.Resolves (newSymbol site) :=
  .orElse (.map fun _ _ => rfl) (.map fun _ _ => rfl)

theorem resolves_assertedChain : site.Resolves (assertedChain site) := .bind fun _ _ => .some rfl

theorem resolves_octalLiteral : site.Resolves (octalLiteral site) :=
  .bind fun _ _ => .bind fun _ _ => .some rfl

theorem resolves_prototypeCall : site.Resolves (prototypeCall site) := .bind fun _ _ => .some rfl

theorem resolves_sparseArray : site.Resolves (sparseArray site) := .bind fun _ _ => .some rfl

theorem resolves_thrownLiteral : site.Resolves (thrownLiteral site) := by
  refine .bind fun text _ => ?_
  simp only
  split
  · exact .bind fun _ _ => .some rfl
  · exact .bind fun _ _ => .some rfl

end Expression

section ImportLine

theorem resolves_hintedImport (hint : Text) : site.Resolves (hintedImport site hint) :=
  .map fun _ _ => rfl

theorem resolves_processGlobal : site.Resolves (processGlobal site) :=
  .bind fun hint _ => resolves_hintedImport site hint

theorem diagnostic_of_mem_nodeGlobal :
    ∀ fix ∈ nodeGlobal site, fix.diagnostic = site.diagnostic := by
  unfold nodeGlobal
  split
  · exact List.forall_mem_nil _
  · exact List.forall_mem_append.mpr
      ⟨(resolves_hintedImport site _).toList, (resolves_useInstead site _).toList⟩

theorem resolves_importAssertion : site.Resolves (importAssertion site) :=
  .bind fun _ _ => .some rfl

theorem diagnostic_of_sloppyImport {fixes : List Fix} (built : sloppyImport site = some fixes) :
    ∀ fix ∈ fixes, fix.diagnostic = site.diagnostic := by
  unfold sloppyImport at built
  split at built
  · obtain rfl := Option.some.inj built
    exact List.forall_mem_nil _
  · obtain ⟨_, -, same⟩ := Option.bind_eq_some_iff.mp built
    obtain rfl := Option.some.inj same
    exact List.forall_mem_singleton.mpr rfl

theorem resolves_uselessRename : site.Resolves (uselessRename site) := .bind fun _ _ => .some rfl

theorem diagnostic_of_mem_typeOnlyImport :
    ∀ fix ∈ typeOnlyImport site, fix.diagnostic = site.diagnostic := by
  unfold typeOnlyImport
  split
  · exact List.forall_mem_nil _
  · refine List.forall_mem_append.mpr ⟨?_, ?_⟩
    · split
      · exact List.forall_mem_singleton.mpr rfl
      · exact List.forall_mem_nil _
    · exact Fix.Offered.toList (.bind fun _ _ => .bind fun _ _ => .some rfl)

theorem diagnostic_of_mem_referenceComment :
    ∀ fix ∈ referenceComment site, fix.diagnostic = site.diagnostic := by
  unfold referenceComment
  split
  · exact List.forall_mem_nil _
  · intro fix member
    obtain ⟨valid, -, rfl⟩ := List.mem_map.mp member
    rfl

end ImportLine

section Member

theorem resolves_superCall : site.Resolves (superCall site) := .bind fun _ _ => .some rfl

theorem diagnostic_debuggerStatement : (debuggerStatement site).diagnostic = site.diagnostic := by
  simp only [debuggerStatement]
  split
  · rfl
  · have resolves : ∀ offer, site.Resolves offer →
        (offer.getD (.deleteRange "Remove `debugger` statement" site.diagnostic)).diagnostic =
          site.diagnostic := fun _ offered => offered.getD rfl
    exact resolves _ (.bind fun _ _ => .map fun _ _ => rfl)

theorem resolves_needlessAsync : site.Resolves (needlessAsync site) := .bind fun _ _ => .some rfl

theorem resolves_needlessGenerator : site.Resolves (needlessGenerator site) :=
  .bind fun _ _ => .some rfl

theorem resolves_misusedNew : site.Resolves (misusedNew site) := by
  refine .bind fun owner _ => ?_
  cases owner with
  | ofClass => exact .bind fun _ _ => .some rfl
  | ofInterface => exact .bind fun _ _ => .some rfl

end Member

theorem diagnostic_of_mem_general : ∀ fix ∈ general site, fix.diagnostic = site.diagnostic := by
  refine List.forall_mem_append.mpr ⟨Fix.Offered.toList ?_, List.forall_mem_singleton.mpr rfl⟩
  exact .bind fun _ _ => resolves_useInstead site _

end Repair

namespace Suppression

/-- The actions that silence a rule are for the diagnostic of the site, and only on request. -/
theorem of_mem_actions (site : Site) :
    ∀ fix ∈ actions site, fix.diagnostic = site.diagnostic ∧ fix.preferred = false := by
  unfold actions
  split
  · exact List.forall_mem_nil _
  · refine List.forall_mem_append.mpr ⟨?_, ?_⟩
    · exact Fix.Offered.toList (.map fun _ _ => ⟨rfl, rfl⟩)
    · exact Fix.Offered.toList (.map fun _ _ => ⟨rfl, rfl⟩)

end Suppression

namespace Registry

open Provider Repair

/-- Every built-in provider, the fallback included, builds fixes only for the diagnostic that it is
asked about. -/
theorem isDirect_of_mem_builtin : ∀ provider ∈ builtin.all, provider.IsDirect := by
  simp only [all, builtin, List.forall_mem_append, List.forall_mem_cons]
  exact ⟨⟨
    isDirect_single _ resolves_unusedIgnore,
    isDirect_single _ resolves_untaggedIgnore,
    isDirect_single _ resolves_unknownCode,
    isDirect_total _ diagnostic_of_mem_unusedVariable,
    isDirect_single _ resolves_letToConst,
    isDirect_single _ resolves_varToLet,
    isDirect_single _ resolves_camelCase,
    isDirect_single _ resolves_inferrableType,
    isDirect_single _ resolves_fallthrough,
    isDirect_single _ resolves_caseDeclarations,
    isDirect_single _ resolves_booleanAttribute,
    isDirect_single _ resolves_curlyBraces,
    isDirect_single _ resolves_commentText,
    isDirect_single _ resolves_uselessFragment,
    isDirect_total _ diagnostic_of_mem_looseEquality,
    isDirect_single _ resolves_booleanCast,
    isDirect_single _ resolves_newSymbol,
    isDirect_single _ resolves_assertedChain,
    isDirect_single _ resolves_octalLiteral,
    isDirect_single _ resolves_prototypeCall,
    isDirect_single _ resolves_sparseArray,
    isDirect_single _ resolves_thrownLiteral,
    isDirect_single _ resolves_bannedType,
    isDirect_total _ diagnostic_of_mem_explicitAny,
    isDirect_single _ resolves_misusedNew,
    isDirect_single _ resolves_processGlobal,
    isDirect_total _ diagnostic_of_mem_nodeGlobal,
    isDirect_single _ resolves_importAssertion,
    fun site _ built => diagnostic_of_sloppyImport site built,
    isDirect_single _ resolves_uselessRename,
    isDirect_total _ diagnostic_of_mem_typeOnlyImport,
    isDirect_total _ diagnostic_of_mem_referenceComment,
    isDirect_single _ resolves_superCall,
    isDirect_single _ fun site => .some (diagnostic_debuggerStatement site),
    isDirect_single _ fun _ => .some rfl,
    isDirect_single _ resolves_needlessAsync,
    isDirect_single _ resolves_needlessGenerator,
    List.forall_mem_nil _⟩,
    isDirect_total _ diagnostic_of_mem_general,
    List.forall_mem_nil _⟩

end Registry

end LintRepair
