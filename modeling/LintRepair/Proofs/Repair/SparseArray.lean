import Mathlib.Data.Option.Basic
import LintRepair.Proofs.Provider
import LintRepair.Proofs.Text.TopLevel
import LintRepair.Repair.Expression

/-!
# Arrays without empty slots

The slots of an array are the trimmed pieces of its inner text between the commas outside brackets
and strings.  The repair keeps the filled slots as they are and in their order, whatever the inner
text leaves open or closes too often, and has nothing more to do on what it made.
-/

namespace LintRepair

namespace Expression

open Text Nesting

/-- The slots of an array, given its inner text. -/
def slots (inner : Text) : List Text := (splitTopLevel ',' inner).map trim

/-- An array literal with this inner text. -/
def bracketed (inner : Text) : Text := '[' :: (inner ++ [']'])

section Slots

variable {s inner element : Text}

/-- What is kept of a list before the last kept element stood before its last element. -/
theorem mem_dropLast_of_mem_dropLast_filter {kept : α → Bool} {items : List α} {item : α}
    (member : item ∈ (items.filter kept).dropLast) : item ∈ items.dropLast := by
  rcases List.eq_nil_or_concat items with rfl | ⟨front, last, rfl⟩
  · simp at member
  · rw [List.concat_eq_append, List.filter_append] at member
    rw [List.concat_eq_append, List.dropLast_concat]
    by_cases last_kept : kept last
    · rw [List.filter_cons_of_pos last_kept, List.filter_nil, List.dropLast_concat] at member
      exact List.mem_of_mem_filter member
    · rw [List.filter_cons_of_neg last_kept, List.filter_nil, List.append_nil] at member
      exact List.mem_of_mem_filter (List.dropLast_subset _ member)

theorem elements_eq (inner : Text) : elements inner = (slots inner).filter (· ≠ []) := by
  refine List.filter_congr fun slot _ => ?_
  cases slot <;> rfl

theorem bracketed_inj {other : Text} : bracketed inner = bracketed other ↔ inner = other := by
  simp [bracketed]

theorem trim_bracketed (inner : Text) : trim (bracketed inner) = bracketed inner :=
  trim_between (by decide) (by decide) inner

theorem arrayInner?_eq_some_iff : arrayInner? s = some inner ↔ trim s = bracketed inner := by
  simp only [arrayInner?, Option.bind_eq_bind, Option.bind_eq_some_iff, after?_eq_some_iff,
    before?_eq_some_iff]
  constructor
  · rintro ⟨_, trimmed, rfl⟩
    exact trimmed
  · intro trimmed
    exact ⟨_, trimmed, rfl⟩

theorem compacted?_eq_some_iff {compact : Text} : compacted? s = some compact ↔
    ∃ inner, trim s = bracketed inner ∧
      compact = bracketed (joined ", " (elements inner)) ∧ compact ≠ trim s := by
  simp only [compacted?, Option.bind_eq_bind, Option.bind_eq_some_iff, arrayInner?_eq_some_iff]
  refine exists_congr fun inner => and_congr_right fun _ => ?_
  have written : "[" ++ joined ", " (elements inner) ++ "]" =
      bracketed (joined ", " (elements inner)) := rfl
  rw [written]
  simp only [Option.guard_eq_some', exists_const, Option.pure_def, Option.some.injEq]
  constructor
  · rintro ⟨changed, rfl⟩
    exact ⟨rfl, changed⟩
  · rintro ⟨rfl, changed⟩
    exact ⟨changed, rfl⟩

theorem isFilled_of_mem_elements (member : element ∈ elements inner) :
    element ≠ [] ∧ trim element = element ∧ splitTopLevel ',' element = [element] := by
  rw [elements_eq, List.mem_filter] at member
  obtain ⟨slot, filled⟩ := member
  obtain ⟨piece, piece_mem, rfl⟩ := List.mem_map.mp slot
  exact ⟨of_decide_eq_true filled, trim_trim piece,
    splitTopLevel_trim_of_whole (by decide) (whole_of_mem_splitTopLevel piece_mem)⟩

/-- Only the last element of an array need not be balanced. -/
theorem isBalanced_of_mem_dropLast_elements (member : element ∈ (elements inner).dropLast) :
    isBalanced element := by
  rw [elements_eq] at member
  have slot := mem_dropLast_of_mem_dropLast_filter member
  rw [slots, ← List.map_dropLast] at slot
  obtain ⟨piece, piece_mem, rfl⟩ := List.mem_map.mp slot
  exact isBalanced_trim (isBalanced_of_mem_dropLast piece_mem)

theorem slots_joined_elements (filled : elements inner ≠ []) :
    slots (joined ", " (elements inner)) = elements inner := by
  have comma : IsPlain ',' := by decide
  have space : ∀ c ∈ [' '], isBlank c := List.forall_mem_singleton.mpr (by decide)
  have kept := map_trim_splitTopLevel_joined comma (by decide) space filled
    (fun _ => isBalanced_of_mem_dropLast_elements)
    (fun _ member => (isFilled_of_mem_elements member).2.2)
  have trimmed : (elements inner).map trim = elements inner :=
    (List.map_congr_left fun _ member => (isFilled_of_mem_elements member).2.1).trans
      (List.map_id _)
  exact kept.trans trimmed

/-- An array without empty slots is made of its elements. -/
theorem elements_joined_elements (inner : Text) :
    elements (joined ", " (elements inner)) = elements inner := by
  by_cases filled : elements inner = []
  · rw [filled]
    rfl
  · rw [elements_eq, slots_joined_elements filled, List.filter_eq_self]
    exact fun element member => decide_eq_true (isFilled_of_mem_elements member).1

/-- Nothing is left to do for an array without empty slots. -/
theorem compacted?_of_compact (trimmed : trim s = bracketed (joined ", " (elements inner))) :
    compacted? s = none := by
  rw [Option.eq_none_iff_forall_ne_some]
  intro compact again
  obtain ⟨same, same_trimmed, rfl, changed⟩ := compacted?_eq_some_iff.mp again
  obtain rfl := bracketed_inj.mp (trimmed.symm.trans same_trimmed)
  rw [elements_joined_elements] at changed
  exact changed trimmed.symm

end Slots

/-- Nothing but blanks and commas stands in a text, as between two filled slots. -/
def IsGap (gap : Text) : Prop := ∀ c ∈ gap, isBlank c ∨ c = ','

instance (gap : Text) : Decidable (IsGap gap) := List.decidableBAll _ _

section Gaps

variable {a b blanks gap : Text}

theorem elements_append_blanks (blank : ∀ c ∈ blanks, isBlank c) (a : Text) :
    elements (a ++ blanks) = elements a := by
  rw [elements, elements, map_trim_splitTopLevel_append_blanks (by decide) blank]

theorem elements_blanks_append (blank : ∀ c ∈ blanks, isBlank c) (b : Text) :
    elements (blanks ++ b) = elements b := by
  rw [elements, elements, map_trim_splitTopLevel_blanks_append (by decide) blank]

theorem elements_append_comma (balanced : isBalanced a) (b : Text) :
    elements (a ++ ',' :: b) = elements a ++ elements b := by
  rw [elements, splitTopLevel_append_cons (by decide) balanced, List.map_append, List.filter_append]
  rfl

theorem elements_gap_append (isGap : IsGap gap) (b : Text) : elements (gap ++ b) = elements b := by
  induction gap with
  | nil => rfl
  | cons c gap ih =>
      obtain ⟨first, later⟩ := List.forall_mem_cons.mp isGap
      rcases first with blank | rfl
      · exact (elements_blanks_append (List.forall_mem_singleton.mpr blank) _).trans (ih later)
      · exact (elements_append_comma (a := []) rfl _).trans (ih later)

/-- A gap with a comma in it stands between the elements before it and those behind. -/
theorem elements_append_gap_append (balanced : isBalanced a) (isGap : IsGap gap)
    (parts : ',' ∈ gap) (b : Text) : elements (a ++ (gap ++ b)) = elements a ++ elements b := by
  obtain ⟨lead, rest, rfl, absent⟩ := List.eq_append_cons_of_mem parts
  rw [IsGap, List.forall_mem_append, List.forall_mem_cons] at isGap
  have lead_blank : ∀ c ∈ lead, isBlank c := fun c member =>
    (isGap.1 c member).resolve_right fun comma => absent (comma ▸ member)
  calc
    elements (a ++ (lead ++ ',' :: rest ++ b)) = elements ((a ++ lead) ++ ',' :: (rest ++ b)) := by
      simp only [List.append_assoc, List.cons_append]
    _ = elements (a ++ lead) ++ elements (rest ++ b) :=
      elements_append_comma (isBalanced_append balanced (isBalanced_of_isBlank lead_blank)) _
    _ = elements a ++ elements b := by
      rw [elements_append_blanks lead_blank, elements_gap_append isGap.2.2]

theorem elements_append_gap (balanced : isBalanced a) (isGap : IsGap gap) :
    elements (a ++ gap) = elements a := by
  by_cases parts : ',' ∈ gap
  · have cut := elements_append_gap_append balanced isGap parts []
    rw [List.append_nil] at cut
    rw [cut]
    exact List.append_nil _
  · exact elements_append_blanks (fun c member =>
      (isGap c member).resolve_right fun comma => parts (comma ▸ member)) a

end Gaps

end Expression

namespace Repair

open Text Nesting Expression

/-- The repair of an array keeps what stands in its slots, in order and character by character, and
leaves no slot empty unless all were.  It offers nothing on the new array, wherever that stands. -/
theorem filled_slots_kept_in_order {site : Site} {fix : Fix}
    (offered : sparseArray site = some fix) :
    ∃ text inner compact, site.text? = some text ∧ trim text = bracketed inner ∧
      fix = site.replaceRange "Remove empty slots from the array" (bracketed compact) ∧
      ((slots inner).filter (· ≠ []) = [] → compact = []) ∧
      ((slots inner).filter (· ≠ []) ≠ [] → slots compact = (slots inner).filter (· ≠ [])) ∧
      ∀ other : Site, other.text?.map trim = some (bracketed compact) →
        sparseArray other = none := by
  simp only [sparseArray, Option.bind_eq_bind, Option.bind_eq_some_iff] at offered
  obtain ⟨array, ⟨text, text_eq, compacted⟩, same⟩ := offered
  obtain ⟨inner, trimmed, rfl, -⟩ := compacted?_eq_some_iff.mp compacted
  refine ⟨text, inner, joined ", " (elements inner), text_eq, trimmed,
    (Option.some.inj same).symm, fun none_filled => ?_, fun filled => ?_, fun other covered => ?_⟩
  · rw [elements_eq, none_filled]
    rfl
  · rw [← elements_eq] at filled ⊢
    exact slots_joined_elements filled
  · obtain ⟨other_text, other_eq, other_trimmed⟩ := Option.map_eq_some_iff.mp covered
    rw [sparseArray, other_eq, Option.bind_some, compacted?_of_compact other_trimmed]
    rfl

/-- A report about an array on the first line of a text. -/
def arraySite (text : Text) (first last : Nat) : Site :=
  .reporting "no-sparse-arrays" text (.onLine 0 first last)

/-- Calls, strings and arrays between empty slots, and a bracket and a quote too many. -/
def brokenInner : Text := "f(a, b), , \"x,,y\", [1, , 2], , ), , 'z\\"

/-- The same without the empty slots before the bracket. -/
def brokenCompact : Text := "f(a, b), \"x,,y\", [1, , 2], ), , 'z\\"

theorem filled_slots_kept_of_broken :
    sparseArray (arraySite (bracketed brokenInner) 0 41) =
      some ((arraySite (bracketed brokenInner) 0 41).replaceRange
        "Remove empty slots from the array" (bracketed brokenCompact)) ∧
    slots brokenCompact = (slots brokenInner).filter (· ≠ []) ∧
    sparseArray (arraySite (bracketed brokenCompact) 0 37) = none := by
  have offered : sparseArray (arraySite (bracketed brokenInner) 0 41) =
      some ((arraySite (bracketed brokenInner) 0 41).replaceRange
        "Remove empty slots from the array" (bracketed brokenCompact)) := by decide +kernel
  have covered : (arraySite (bracketed brokenInner) 0 41).text? = some (bracketed brokenInner) := by
    decide +kernel
  obtain ⟨text, inner, compact, text_eq, trimmed, same, -, kept, settled⟩ :=
    filled_slots_kept_in_order offered
  obtain rfl := Option.some.inj (covered.symm.trans text_eq)
  obtain rfl := bracketed_inj.mp (Site.replaceRange_inj.mp same)
  rw [trim_bracketed] at trimmed
  obtain rfl := bracketed_inj.mp trimmed
  exact ⟨offered, kept (by decide +kernel), settled _ (by decide +kernel)⟩

end Repair

end LintRepair
