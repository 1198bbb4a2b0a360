import LintRepair.Proofs.Least
import LintRepair.Relevance

/-!
# What a request is about

A request is about items that it touches, in their order.  A selection is about all of them, and a
cursor about one of them if there is any.
-/

namespace LintRepair

namespace Relevance

variable {rangeOf : α → Range} {items : List α} {requested : Range}

theorem toList_firstLeast?_sublist (less : α → α → Bool) (items : List α) :
    (firstLeast? less items).toList.Sublist items := by
  cases found : firstLeast? less items with
  | none => exact List.nil_sublist items
  | some item => exact List.singleton_sublist.mpr (mem_of_firstLeast? found)

theorem selectBy_sublist :
    (selectBy rangeOf items requested).Sublist
      (items.filter fun item => (rangeOf item).intersects requested) := by
  simp only [selectBy]
  split
  · exact List.Sublist.refl _
  · apply (toList_firstLeast?_sublist _ _).trans
    split
    · exact List.Sublist.refl _
    · exact List.filter_sublist

theorem selectBy_of_selection (selection : requested.isEmpty = false) :
    selectBy rangeOf items requested =
      items.filter fun item => (rangeOf item).intersects requested := by
  simp [selectBy, selection]

theorem length_selectBy_of_cursor (cursor : requested.isEmpty) :
    (selectBy rangeOf items requested).length ≤ 1 := by
  simp only [selectBy]
  split
  · rename_i few
    simpa [cursor] using few
  · exact Option.length_toList_le

theorem selectBy_eq_nil_iff :
    selectBy rangeOf items requested = [] ↔
      ∀ item ∈ items, (rangeOf item).intersects requested = false := by
  have touched_nil_iff : (items.filter fun item => (rangeOf item).intersects requested) = [] ↔
      ∀ item ∈ items, (rangeOf item).intersects requested = false := by
    simp [List.filter_eq_nil_iff]
  rw [← touched_nil_iff]
  simp only [selectBy]
  split
  · rfl
  · rw [Option.toList_eq_nil_iff, firstLeast?_eq_none_iff]
    split
    · rfl
    · rename_i some_contain
      rw [List.isEmpty_iff] at some_contain
      refine iff_of_false some_contain fun none_touched => some_contain ?_
      rw [none_touched, List.filter_nil]

end Relevance

end LintRepair
