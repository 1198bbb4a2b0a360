import LintRepair.Proofs.Document.Offset
import LintRepair.Proofs.Relevance
import Mathlib.Data.Prod.Lex

/-!
# What a cursor is about

A cursor touches exactly the ranges that contain it, and is about the earliest of those with the
least rank: distance of the start first, then size, each as the number its machine word stands for.
-/

namespace LintRepair

namespace Relevance

variable {cursor : Position} {requested : Range}

/-- How badly a range suits a cursor: by the distance of its start, then by its size. -/
def rank (cursor : Position) (r : Range) : Nat ×ₗ Int :=
  toLex ((distance cursor r).toNat, (size r).toInt)

theorem isBetter_iff {a b : Range} : isBetter cursor a b ↔ rank cursor a < rank cursor b := by
  rw [rank, rank, Prod.Lex.toLex_lt_toLex]
  simp [isBetter, UInt64.lt_iff_toNat_lt, UInt64.toNat_inj, Int64.lt_iff_toInt_lt]

/-- An empty range touches what it is inside of, both ends counted. -/
theorem intersects_eq_contains (empty : requested.isEmpty) (r : Range) :
    r.intersects requested = r.contains requested.start := by
  have same : requested.start = requested.stop := of_decide_eq_true empty
  rw [Range.intersects, Range.contains, ← same]

section Select

variable {rangeOf : α → Range} {items : List α} {item : α}

theorem selectBy_of_cursor (empty : requested.isEmpty) :
    selectBy rangeOf items requested =
      (firstLeast? (fun a b => isBetter requested.start (rangeOf a) (rangeOf b))
        (items.filter fun item => (rangeOf item).contains requested.start)).toList := by
  simp only [selectBy, intersects_eq_contains empty, empty, List.filter_filter, Bool.and_self,
    ite_self, Bool.not_true, Bool.or_false, decide_eq_true_eq]
  split
  · rename_i few
    exact (toList_firstLeast?_of_length_le_one few).symm
  · rfl

theorem mem_selectBy_iff (empty : requested.isEmpty) :
    item ∈ selectBy rangeOf items requested ↔
      IsFirstLeast (fun item => rank requested.start (rangeOf item))
        (items.filter fun item => (rangeOf item).contains requested.start) item := by
  rw [selectBy_of_cursor empty, Option.mem_toList]
  exact firstLeast?_eq_some_iff fun _ _ => isBetter_iff

end Select

/-- Whether none of the diagnostics that a request touches contains its start, so that all of them
would be kept. -/
def FallsBack (diagnostics : List Diagnostic) (requested : Range) : Prop :=
  let touched := diagnostics.filter (·.range.intersects requested)
  touched ≠ [] ∧ touched.filter (·.range.contains requested.start) = []

theorem not_fallsBack (diagnostics : List Diagnostic) (empty : requested.isEmpty) :
    ¬ FallsBack diagnostics requested := by
  rintro ⟨touched, uncontained⟩
  simp only [intersects_eq_contains empty, List.filter_filter, Bool.and_self] at touched uncontained
  exact touched uncontained

/-- A selection is about every diagnostic it touches, in their order.  A cursor is about none only
where no diagnostic contains it; else it is about the first one of those containing it whose rank
is least, and never about one that only touches it. -/
theorem cursor_selects_first_least (diagnostics : List Diagnostic) (requested : Range) :
    (requested.isEmpty = false →
      select diagnostics requested = diagnostics.filter (·.range.intersects requested)) ∧
    (requested.isEmpty →
      ¬ FallsBack diagnostics requested ∧
      (select diagnostics requested = [] ↔
        ∀ d ∈ diagnostics, ¬ d.range.contains requested.start) ∧
      ((∃ d ∈ diagnostics, d.range.contains requested.start) →
        ∃ d, select diagnostics requested = [d] ∧ d.range.contains requested.start ∧
          IsFirstLeast (fun d => rank requested.start d.range)
            (diagnostics.filter (·.range.contains requested.start)) d)) := by
  refine ⟨selectBy_of_selection, fun empty => ⟨not_fallsBack diagnostics empty, ?_⟩⟩
  have nil_iff : select diagnostics requested = [] ↔
      ∀ d ∈ diagnostics, ¬ d.range.contains requested.start := by
    simp only [select, selectBy_eq_nil_iff, intersects_eq_contains empty, Bool.not_eq_true]
  refine ⟨nil_iff, fun ⟨inside, inside_mem, around⟩ => ?_⟩
  have nonempty : select diagnostics requested ≠ [] := fun none =>
    nil_iff.mp none inside inside_mem around
  obtain ⟨d, selected⟩ : ∃ d, select diagnostics requested = [d] := by
    rw [← List.length_eq_one_iff]
    exact Nat.le_antisymm (length_selectBy_of_cursor empty) (List.length_pos_iff.mpr nonempty)
  have member : d ∈ select diagnostics requested := selected ▸ List.mem_singleton_self d
  have least := (mem_selectBy_iff empty).mp member
  exact ⟨d, selected, (List.mem_filter.mp least.mem).2, least⟩

/-- A diagnostic of a rule at a range. -/
def diagnosticAt (code : Text) (range : Range) : Diagnostic :=
  ⟨code, "message", range, .error, none, none, Diagnostic.lintSource⟩

/-- Two diagnostics at one place inside of a third one, and one that lies elsewhere. -/
def nestedDiagnostics : List Diagnostic :=
  [diagnosticAt "outer" (.onLine 0 0 40), diagnosticAt "first" (.onLine 0 10 15),
    diagnosticAt "second" (.onLine 0 10 15), diagnosticAt "apart" (.onLine 1 0 5)]

theorem cursor_selects_first_of_nested :
    (Range.empty ⟨0, 15⟩).isEmpty ∧
    (∃ d ∈ nestedDiagnostics, d.range.contains ⟨0, 15⟩) ∧
    ¬ FallsBack nestedDiagnostics (.empty ⟨0, 15⟩) ∧
    (∃ d, select nestedDiagnostics (.empty ⟨0, 15⟩) = [d] ∧ d.code = "first".toList ∧
      IsFirstLeast (fun d => rank ⟨0, 15⟩ d.range)
        (nestedDiagnostics.filter (·.range.contains ⟨0, 15⟩)) d) ∧
    (Range.onLine 0 40 41).isEmpty = false ∧
    select nestedDiagnostics (.onLine 0 40 41) =
      nestedDiagnostics.filter (·.range.intersects (.onLine 0 40 41)) := by
  have some_contain : ∃ d ∈ nestedDiagnostics, d.range.contains ⟨0, 15⟩ := by decide
  obtain ⟨no_fallback, -, one⟩ :=
    (cursor_selects_first_least nestedDiagnostics (.empty ⟨0, 15⟩)).2 rfl
  obtain ⟨d, selected, -, least⟩ := one some_contain
  have first : select nestedDiagnostics (.empty ⟨0, 15⟩) =
      [diagnosticAt "first" (.onLine 0 10 15)] := by decide
  obtain rfl := List.singleton_inj.mp (selected.symm.trans first)
  exact ⟨rfl, some_contain, no_fallback, ⟨_, selected, rfl, least⟩, rfl,
    (cursor_selects_first_least nestedDiagnostics (.onLine 0 40 41)).1 rfl⟩

end Relevance

end LintRepair
