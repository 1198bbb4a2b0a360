import LintRepair.Proofs.Dispatcher
import LintRepair.Proofs.Registry

/-!
# Order of preference

For a diagnostic the dispatcher offers what the first provider has that claims the rule and builds a
fix that can be applied.  The fallback always builds one, so there is such a provider.  A provider
that nowhere builds a fix that can be applied may stand anywhere in the registry: no listing shows
that it is there.
-/

namespace LintRepair

namespace Provider

/-- Whether a provider claims the rule at a site and builds a fix there that can be applied. -/
def Helps (provider : Provider) (site : Site) : Prop :=
  provider.claims site.diagnostic ∧ ∃ fixes, provider.build site = some fixes ∧
    ∃ fix ∈ fixes, fix.isUsable site.document

/-- At every site the provider does not claim the rule, or breaks down, or builds no fix that can
be applied. -/
def IsIdle (provider : Provider) : Prop :=
  ∀ site : Site, provider.claims site.diagnostic = false ∨ provider.build site = none ∨
    ∃ fixes, provider.build site = some fixes ∧ ∀ fix ∈ fixes, fix.isUsable site.document = false

/-- The test that the dispatcher makes of one provider after another. -/
def helps (provider : Provider) (site : Site) : Bool :=
  provider.claims site.diagnostic && !(provider.usableFixes site).isEmpty

theorem helps_iff {provider : Provider} {site : Site} :
    provider.helps site ↔ provider.Helps site := by
  rw [helps, Helps, Bool.and_eq_true, Bool.not_eq_true', List.isEmpty_eq_false_iff, usableFixes]
  cases provider.build site with
  | none => simp
  | some fixes => simp [List.filter_eq_nil_iff]

theorem Helps.usableFixes_ne_nil {provider : Provider} {site : Site}
    (helpful : provider.Helps site) : provider.usableFixes site ≠ [] := by
  have accepted := helps_iff.mpr helpful
  rw [helps, Bool.and_eq_true, Bool.not_eq_true', List.isEmpty_eq_false_iff] at accepted
  exact accepted.2

theorem IsIdle.not_helps {provider : Provider} (idle : provider.IsIdle) (site : Site) :
    ¬ provider.Helps site := by
  rintro ⟨claimed, fixes, built, fix, member, usable⟩
  rcases idle site with unclaimed | broken | ⟨others, others_built, unusable⟩
  · simp [unclaimed] at claimed
  · simp [broken] at built
  · obtain rfl := Option.some.inj (built.symm.trans others_built)
    simp [unusable fix member] at usable

end Provider

namespace Registry

/-- The link to the documentation can be applied wherever it is offered. -/
theorem fallback_helps (site : Site) : fallback.Helps site :=
  ⟨rfl, Repair.general site, rfl, _, List.mem_append_right _ List.mem_cons_self,
    Fix.isUsable_ofAction _ _ _ _⟩

end Registry

namespace Dispatcher

variable (dispatcher : Dispatcher)

theorem ruleFixes_eq_find? (diagnostic : Diagnostic) (document : Document) :
    dispatcher.ruleFixes diagnostic document =
      ((dispatcher.registry.all.find? (·.helps (dispatcher.site diagnostic document))).map
        (·.usableFixes (dispatcher.site diagnostic document))).getD [] := by
  simp only [ruleFixes, Registry.claiming, List.find?_map, List.find?_filter, Function.comp_def,
    Bool.decide_and, Bool.decide_eq_true]
  rfl

/-- The provider whose fixes are offered for a diagnostic. -/
theorem exists_helping_provider (diagnostic : Diagnostic) (document : Document) :
    ∃ earlier provider later, dispatcher.registry.all = earlier ++ provider :: later ∧
      (∀ other ∈ earlier, ¬ other.Helps (dispatcher.site diagnostic document)) ∧
      provider.Helps (dispatcher.site diagnostic document) ∧
      dispatcher.ruleFixes diagnostic document =
        provider.usableFixes (dispatcher.site diagnostic document) := by
  have fallback_listed : Registry.fallback ∈ dispatcher.registry.all :=
    List.mem_append_right _ List.mem_cons_self
  have fallback_helps := Registry.fallback_helps (dispatcher.site diagnostic document)
  have chosen : (dispatcher.registry.all.find?
      (·.helps (dispatcher.site diagnostic document))).isSome :=
    List.find?_isSome.mpr ⟨_, fallback_listed, Provider.helps_iff.mpr fallback_helps⟩
  obtain ⟨provider, found⟩ := Option.isSome_iff_exists.mp chosen
  obtain ⟨accepted, earlier, later, parts, passed⟩ := List.find?_eq_some_iff_append.mp found
  refine ⟨earlier, provider, later, parts, ?_, Provider.helps_iff.mp accepted, ?_⟩
  · intro other member other_helps
    have refused := passed other member
    rw [Provider.helps_iff.mpr other_helps] at refused
    contradiction
  · rw [ruleFixes_eq_find?, found, Option.map_some, Option.getD_some]

/-- The fallback sees to it that there is a fix for every diagnostic. -/
theorem ruleFixes_ne_nil (diagnostic : Diagnostic) (document : Document) :
    dispatcher.ruleFixes diagnostic document ≠ [] := by
  obtain ⟨-, provider, -, -, -, helps, fixes_eq⟩ :=
    dispatcher.exists_helping_provider diagnostic document
  rw [fixes_eq]
  exact helps.usableFixes_ne_nil

/-- What is listed depends on the registry only through the fixes of each diagnostic. -/
theorem listFixes_congr {one other : Registry} {settings : Settings} {document : Document}
    (same : ∀ diagnostic, (Dispatcher.mk one settings).ruleFixes diagnostic document =
      (Dispatcher.mk other settings).ruleFixes diagnostic document)
    (diagnostics : List Diagnostic) (requested : Range) :
    (Dispatcher.mk one settings).listFixes diagnostics requested document =
      (Dispatcher.mk other settings).listFixes diagnostics requested document := by
  have same_fixes : ((Dispatcher.mk one settings).ruleFixes · document) =
      ((Dispatcher.mk other settings).ruleFixes · document) := funext same
  simp only [listFixes, same_fixes]
  rfl

theorem ruleFixes_insert_idle {earlier later : List Provider} {idle : Provider}
    (is_idle : idle.IsIdle) (settings : Settings) (diagnostic : Diagnostic)
    (document : Document) :
    (Dispatcher.mk ⟨earlier ++ idle :: later⟩ settings).ruleFixes diagnostic document =
      (Dispatcher.mk ⟨earlier ++ later⟩ settings).ruleFixes diagnostic document := by
  have refused : idle.helps ⟨diagnostic, document, settings⟩ = false :=
    Bool.eq_false_iff.mpr (mt Provider.helps_iff.mp (is_idle.not_helps _))
  simp only [ruleFixes_eq_find?, site, Registry.all, List.append_assoc, List.cons_append,
    List.find?_append, List.find?_cons, refused]

/-- The first provider that helps decides, and a provider that never helps changes nothing.  What is
offered for a diagnostic is never empty: it is all that can be applied of what a provider builds
that claims the rule and does not break down, where no provider before it, in the order of the
registry with the fallback last, claims the rule and builds something that can be applied.
Whatever is listed under a registry is listed as well when a provider is put into it, at any
place, that at every site does not claim the rule, breaks down or builds nothing that can be
applied. -/
theorem first_helping_provider_decides :
    (∀ diagnostic document, ∃ earlier provider later fixes,
      dispatcher.registry.all = earlier ++ provider :: later ∧
      (∀ other ∈ earlier, ¬ other.Helps (dispatcher.site diagnostic document)) ∧
      provider.claims diagnostic ∧
      provider.build (dispatcher.site diagnostic document) = some fixes ∧
      dispatcher.ruleFixes diagnostic document = fixes.filter (·.isUsable document) ∧
      dispatcher.ruleFixes diagnostic document ≠ []) ∧
    ∀ earlier later idle, dispatcher.registry.providers = earlier ++ later → idle.IsIdle →
      ∀ diagnostics requested document,
        (Dispatcher.mk ⟨earlier ++ idle :: later⟩ dispatcher.settings).listFixes
          diagnostics requested document =
        dispatcher.listFixes diagnostics requested document := by
  constructor
  · intro diagnostic document
    obtain ⟨earlier, provider, later, parts, passed, helps, fixes_eq⟩ :=
      dispatcher.exists_helping_provider diagnostic document
    obtain ⟨claimed, fixes, built, -⟩ := helps
    refine ⟨earlier, provider, later, fixes, parts, passed, claimed, built, ?_,
      dispatcher.ruleFixes_ne_nil diagnostic document⟩
    rw [fixes_eq, Provider.usableFixes, built]
    rfl
  · intro earlier later idle providers_eq is_idle diagnostics requested document
    obtain ⟨⟨providers⟩, settings⟩ := dispatcher
    obtain rfl : providers = earlier ++ later := providers_eq
    apply listFixes_congr
    intro diagnostic
    exact ruleFixes_insert_idle is_idle settings diagnostic document

/-- A provider for every rule that breaks down at a cursor, and for a selection deletes a line
behind the end of the document. -/
def strayProvider : Provider where
  codes := [Provider.wildcard]
  build site :=
    if site.range.isEmpty then none
    else
      let line := site.document.lineCount
      some [site.fix "Stray" (.delete (.between ⟨line, 0⟩ ⟨line + 1, 0⟩))]

theorem strayProvider_isIdle : strayProvider.IsIdle := by
  intro site
  by_cases cursor : site.range.isEmpty
  · exact .inr (.inl (if_pos cursor))
  · refine .inr (.inr ⟨_, if_neg cursor, List.forall_mem_singleton.mpr ?_⟩)
    rw [Bool.eq_false_iff]
    intro usable
    have inside := (Fix.isUsable_iff.mp usable).1 _ List.mem_cons_self
    have start_inside := (Document.containsRange_iff.mp inside).1.line_lt
    simp [Edit.delete] at start_inside

/-- The stray provider stands before the repair of `var` and is passed over. -/
theorem first_helping_provider_decides_for_var :
    strayProvider.IsIdle ∧
    (∃ earlier provider later fixes,
      Registry.builtin.all = earlier ++ provider :: later ∧
      (∀ other ∈ earlier, ¬ other.Helps Registry.varSite) ∧
      provider.claims Registry.varSite.diagnostic ∧
      provider.build Registry.varSite = some fixes ∧
      (Dispatcher.mk .builtin .standard).ruleFixes Registry.varSite.diagnostic
        Registry.varSite.document = fixes.filter (·.isUsable Registry.varSite.document) ∧
      (Dispatcher.mk .builtin .standard).ruleFixes Registry.varSite.diagnostic
        Registry.varSite.document ≠ []) ∧
    ∀ diagnostics requested document,
      (Dispatcher.mk ⟨strayProvider :: Registry.builtin.providers⟩ .standard).listFixes
        diagnostics requested document =
      (Dispatcher.mk .builtin .standard).listFixes diagnostics requested document :=
  have decides := first_helping_provider_decides (.mk .builtin .standard)
  ⟨strayProvider_isIdle, decides.1 Registry.varSite.diagnostic Registry.varSite.document,
    decides.2 [] Registry.builtin.providers strayProvider rfl strayProvider_isIdle⟩

end Dispatcher

end LintRepair
