import LintRepair.Proofs.Dispatcher.Preference
import LintRepair.Proofs.Relevance
import LintRepair.Proofs.Repair.Subject

/-!
# What a listing holds

A listing under the built-in registry has two parts.  The first one holds the fixes of the relevant
diagnostics whose rules may be fixed, a non-empty group for each of them.  The second one holds
actions that silence rules.  All of it can be applied and is for diagnostics that the request is
about.
-/

namespace LintRepair

namespace Dispatcher

/-- A listing in two parts: groups of fixes, each with the diagnostic it is for, and actions that
silence rules. -/
structure IsListing (settings : Settings) (diagnostics : List Diagnostic) (requested : Range)
    (document : Document) (listing : List Fix) (groups : List (Diagnostic × List Fix))
    (silencing : List Fix) : Prop where
  /-- The fixes of all groups come first. -/
  parts : listing = groups.flatMap (·.2) ++ silencing
  /-- Everything listed can be applied. -/
  applies : ∀ fix ∈ listing, (fix.applied? document).isSome
  /-- Everything listed is for a given diagnostic from a lint report that touches the request and
  whose rule is not off. -/
  relevant : ∀ fix ∈ listing,
    fix.diagnostic ∈ diagnostics ∧ fix.diagnostic.source = ("deno-lint" : Text) ∧
      fix.diagnostic.range.intersects requested ∧ settings.ruleMode fix.diagnostic.code ≠ .off
  /-- There is a group for each relevant diagnostic whose rule may be fixed. -/
  grouped : groups.map (·.1) =
    (Relevance.select (diagnostics.filter (·.isFromLint)) requested).filter
      fun diagnostic => settings.ruleMode diagnostic.code = .fix
  /-- The groups are in the order of the diagnostics. -/
  in_order : (groups.map (·.1)).Sublist diagnostics
  /-- A group holds fixes for its diagnostic, and at least one. -/
  group : ∀ group ∈ groups, group.2 ≠ [] ∧ ∀ fix ∈ group.2, fix.diagnostic = group.1
  /-- The second part holds actions that silence a rule on request, for diagnostics of a severity
  for which they are offered. -/
  silences : ∀ fix ∈ silencing, fix.preferred = false ∧
    fix ∈ Suppression.actions ⟨fix.diagnostic, document, settings⟩ ∧
    settings.offersDisabling fix.diagnostic.severity
  /-- For a selection every diagnostic from a lint report that it touches is relevant. -/
  at_selection : requested.isEmpty = false →
    Relevance.select (diagnostics.filter (·.isFromLint)) requested =
      (diagnostics.filter (·.isFromLint)).filter (·.range.intersects requested)
  /-- For a cursor everything listed is for one diagnostic. -/
  at_cursor : requested.isEmpty →
    ∀ one ∈ listing, ∀ other ∈ listing, one.diagnostic = other.diagnostic
  /-- No diagnostic is relevant only where none from a lint report touches the request. -/
  none_relevant : Relevance.select (diagnostics.filter (·.isFromLint)) requested = [] →
    ∀ diagnostic ∈ diagnostics, diagnostic.isFromLint →
      diagnostic.range.intersects requested = false

section

variable {dispatcher : Dispatcher} {diagnostics : List Diagnostic} {requested : Range}

theorem selected_sublist :
    (dispatcher.selected diagnostics requested).Sublist
      (Relevance.select (diagnostics.filter (·.isFromLint)) requested) :=
  List.filter_sublist

theorem selected_sublist_diagnostics :
    (dispatcher.selected diagnostics requested).Sublist diagnostics :=
  selected_sublist.trans
    (Relevance.selectBy_sublist.trans (List.filter_sublist.trans List.filter_sublist))

/-- What is known of a diagnostic that is selected. -/
theorem of_mem_selected {diagnostic : Diagnostic}
    (member : diagnostic ∈ dispatcher.selected diagnostics requested) :
    diagnostic ∈ diagnostics ∧ diagnostic.source = ("deno-lint" : Text) ∧
      diagnostic.range.intersects requested ∧
      dispatcher.settings.ruleMode diagnostic.code ≠ .off := by
  have not_off := of_decide_eq_true (List.mem_filter.mp member).2
  have touched := Relevance.selectBy_sublist.subset (selected_sublist.subset member)
  obtain ⟨from_lint, touches⟩ := List.mem_filter.mp touched
  obtain ⟨given, source⟩ := List.mem_filter.mp from_lint
  exact ⟨given, of_decide_eq_true source, touches, not_off⟩

theorem eq_of_mem_selected_of_cursor (cursor : requested.isEmpty) {one other : Diagnostic}
    (one_member : one ∈ dispatcher.selected diagnostics requested)
    (other_member : other ∈ dispatcher.selected diagnostics requested) : one = other := by
  have few : (dispatcher.selected diagnostics requested).length ≤ 1 :=
    Nat.le_trans selected_sublist.length_le (Relevance.length_selectBy_of_cursor cursor)
  obtain ⟨i, i_lt, rfl⟩ := List.mem_iff_getElem.mp one_member
  obtain ⟨j, j_lt, rfl⟩ := List.mem_iff_getElem.mp other_member
  obtain rfl : i = j := by omega
  rfl

/-- A rule that may be fixed is not off. -/
theorem selected_filter_offersFixes :
    (dispatcher.selected diagnostics requested).filter dispatcher.offersFixes =
      (Relevance.select (diagnostics.filter (·.isFromLint)) requested).filter
        dispatcher.offersFixes := by
  rw [selected, List.filter_filter]
  apply List.filter_congr
  intro diagnostic member
  cases mode : dispatcher.settings.ruleMode diagnostic.code <;> simp [offersFixes, mode]

end

variable {settings : Settings} {diagnostic : Diagnostic} {document : Document} {fix : Fix}

theorem diagnostic_of_mem_builtin_ruleFixes
    (member : fix ∈ (Dispatcher.mk .builtin settings).ruleFixes diagnostic document) :
    fix.diagnostic = diagnostic := by
  obtain ⟨earlier, provider, later, parts, -, -, fixes_eq⟩ :=
    exists_helping_provider (.mk .builtin settings) diagnostic document
  rw [fixes_eq] at member
  have listed : provider ∈ Registry.builtin.all :=
    parts ▸ List.mem_append_right _ List.mem_cons_self
  exact (Registry.isDirect_of_mem_builtin provider listed).diagnostic_eq member

theorem of_mem_disableFixes {dispatcher : Dispatcher}
    (member : fix ∈ dispatcher.disableFixes diagnostic document) :
    fix.diagnostic = diagnostic ∧ fix.preferred = false ∧
      fix ∈ Suppression.actions ⟨diagnostic, document, dispatcher.settings⟩ := by
  have offered := (List.mem_filter.mp member).1
  obtain ⟨same, on_request⟩ := Suppression.of_mem_actions _ fix offered
  exact ⟨same, on_request, offered⟩

/-- Whatever is listed is for a diagnostic that is selected. -/
theorem diagnostic_mem_selected {diagnostics : List Diagnostic} {requested : Range}
    (member : fix ∈ (Dispatcher.mk .builtin settings).listFixes diagnostics requested document) :
    fix.diagnostic ∈ (Dispatcher.mk .builtin settings).selected diagnostics requested := by
  rcases List.mem_append.mp member with fixes | actions
  · obtain ⟨diagnostic, fixable, offered⟩ := List.mem_flatMap.mp fixes
    rw [diagnostic_of_mem_builtin_ruleFixes offered]
    exact (List.mem_filter.mp fixable).1
  · obtain ⟨diagnostic, silenceable, offered⟩ := List.mem_flatMap.mp actions
    rw [(of_mem_disableFixes offered).1]
    exact (List.mem_filter.mp silenceable).1

/-- Every listing under the built-in registry is made of groups of fixes, in the order of the
diagnostics they are for, and behind them of actions that silence rules. -/
theorem builtin_listing_in_two_parts (settings : Settings) (diagnostics : List Diagnostic)
    (requested : Range) (document : Document) :
    ∃ groups silencing, IsListing settings diagnostics requested document
      ((Dispatcher.mk .builtin settings).listFixes diagnostics requested document)
      groups silencing := by
  let dispatcher : Dispatcher := ⟨.builtin, settings⟩
  let selected := dispatcher.selected diagnostics requested
  let groups := (selected.filter dispatcher.offersFixes).map fun diagnostic =>
    (diagnostic, dispatcher.ruleFixes diagnostic document)
  let silencing := (selected.filter fun diagnostic =>
    settings.offersDisabling diagnostic.severity).flatMap (dispatcher.disableFixes · document)
  have group_diagnostics : groups.map (·.1) = selected.filter dispatcher.offersFixes := by
    simp [groups, Function.comp_def]
  refine ⟨groups, silencing, ?_⟩
  constructor
  case parts =>
    simp only [listFixes, groups, List.flatMap_map]
    rfl
  case applies =>
    intro fix member
    rw [← Fix.isUsable_eq_isSome_applied?]
    exact isUsable_of_mem_listFixes member
  case relevant => exact fun fix member => of_mem_selected (diagnostic_mem_selected member)
  case grouped => exact group_diagnostics.trans selected_filter_offersFixes
  case in_order =>
    rw [group_diagnostics]
    exact List.filter_sublist.trans selected_sublist_diagnostics
  case group =>
    intro group member
    obtain ⟨diagnostic, -, rfl⟩ := List.mem_map.mp member
    exact ⟨dispatcher.ruleFixes_ne_nil diagnostic document,
      fun fix offered => diagnostic_of_mem_builtin_ruleFixes offered⟩
  case silences =>
    intro fix member
    obtain ⟨diagnostic, silenceable, offered⟩ := List.mem_flatMap.mp member
    obtain ⟨rfl, on_request, action⟩ := of_mem_disableFixes offered
    exact ⟨on_request, action, (List.mem_filter.mp silenceable).2⟩
  case at_selection => exact Relevance.selectBy_of_selection
  case at_cursor =>
    intro cursor one one_listed other other_listed
    exact eq_of_mem_selected_of_cursor cursor (diagnostic_mem_selected one_listed)
      (diagnostic_mem_selected other_listed)
  case none_relevant =>
    intro nothing diagnostic member from_lint
    have kept := List.mem_filter.mpr ⟨member, from_lint⟩
    exact Relevance.selectBy_eq_nil_iff.mp nothing diagnostic kept

end Dispatcher

end LintRepair
