import LintRepair.Hunk
import LintRepair.Proofs.Document.Line

/-!
# A preview is a patch

Two lists of lines that differ have a common start and a common end that do not meet.  The hunk
between them shows what lies between, and a few lines of the two around it: putting the new side of
what is printed in place of the old side turns the old list into the new one.
-/

namespace LintRepair

namespace Line

theorem newline_not_mem_shown? {line : Line} {text : Text} (absent : '\n' ∉ line.text)
    (shown : line.shown? = some text) : '\n' ∉ text := by
  rw [shown?] at shown
  split at shown
  · split at shown
    · contradiction
    · exact Option.some.inj shown ▸ absent
  · obtain rfl := Option.some.inj shown
    simpa using absent
  · exact Option.some.inj shown ▸ absent
  · exact Option.some.inj shown ▸ absent

theorem newline_not_mem_of_mem_preview {s text : Text} (member : text ∈ preview s) :
    '\n' ∉ text := by
  obtain ⟨line, line_mem, shown⟩ := List.mem_filterMap.mp member
  exact newline_not_mem_shown? ((split_isLayout s).newline_not_mem line line_mem) shown

/-- A return belongs to an ending only before a newline, and an empty last line is not shown. -/
example : preview "a\r\n\r\nb\r" = (["a", "", "b\r"] : List Text) ∧
    preview "a\n" = (["a"] : List Text) ∧ preview "" = [] := by decide

end Line

namespace Hunk

section Shared

variable {old new : List Text}

/-- Two lists share as many lines at their start as are counted, and then differ or end. -/
theorem exists_shared_start (old new : List Text) :
    ∃ shared oldRest newRest, old = shared ++ oldRest ∧ new = shared ++ newRest ∧
      sharedStart old new = shared.length ∧
      ∀ a ∈ oldRest.head?, ∀ b ∈ newRest.head?, a ≠ b := by
  induction old generalizing new with
  | nil => exact ⟨[], [], new, rfl, rfl, rfl, by simp⟩
  | cons a old ih =>
      cases new with
      | nil => exact ⟨[], a :: old, [], rfl, rfl, rfl, by simp⟩
      | cons b new =>
          by_cases same : a = b
          · obtain ⟨shared, oldRest, newRest, rfl, rfl, count_eq, differ⟩ := ih new
            refine ⟨a :: shared, oldRest, newRest, rfl, by rw [same]; rfl, ?_, differ⟩
            rw [sharedStart] at count_eq
            simp [sharedStart, same, count_eq]
          · have none_shared : sharedStart (a :: old) (b :: new) = 0 := by simp [sharedStart, same]
            exact ⟨[], a :: old, b :: new, rfl, rfl, none_shared, by simpa using same⟩

/-- The same at the other end. -/
theorem exists_shared_end (old new : List Text) :
    ∃ oldRest newRest shared, old = oldRest ++ shared ∧ new = newRest ++ shared ∧
      sharedStart old.reverse new.reverse = shared.length ∧
      ∀ a ∈ oldRest.getLast?, ∀ b ∈ newRest.getLast?, a ≠ b := by
  obtain ⟨shared, oldRest, newRest, old_eq, new_eq, count_eq, differ⟩ :=
    exists_shared_start old.reverse new.reverse
  refine ⟨oldRest.reverse, newRest.reverse, shared.reverse, ?_, ?_, ?_, ?_⟩
  · rw [← List.reverse_append, ← old_eq, List.reverse_reverse]
  · rw [← List.reverse_append, ← new_eq, List.reverse_reverse]
  · rw [count_eq, List.length_reverse]
  · rwa [List.getLast?_reverse, List.getLast?_reverse]

theorem sharedStart_self (lines : List Text) : sharedStart lines lines = lines.length := by
  induction lines with
  | nil => rfl
  | cons line lines ih =>
      rw [sharedStart] at ih
      simp [sharedStart, ih]

theorem between?_self (lines : List Text) : between? lines lines = none := by
  rw [between?, sharedStart_self]
  exact if_pos ⟨rfl, rfl⟩

/-- Number of lines that two lists share at their end, behind those they share at their start. -/
def sharedEnd (old new : List Text) : Nat :=
  sharedStart (old.drop (sharedStart old new)).reverse (new.drop (sharedStart old new)).reverse

/-- Lists that differ have a common start and end that do not meet in either of them. -/
theorem exists_parts (differ : old ≠ new) :
    ∃ start removed added stop, old = start ++ (removed ++ stop) ∧ new = start ++ (added ++ stop) ∧
      sharedStart old new = start.length ∧ sharedEnd old new = stop.length ∧
      between? old new = some {
        first := start.length - contextLines
        lead := start.drop (start.length - contextLines)
        removed
        added
        trail := stop.take contextLines } ∧
      (∀ a ∈ removed.head?, ∀ b ∈ added.head?, a ≠ b) ∧
      ∀ a ∈ removed.getLast?, ∀ b ∈ added.getLast?, a ≠ b := by
  obtain ⟨start, oldRest, newRest, old_eq, new_eq, start_eq, first_differ⟩ :=
    exists_shared_start old new
  obtain ⟨removed, added, stop, rfl, rfl, stop_eq, last_differ⟩ :=
    exists_shared_end oldRest newRest
  have old_rest : old.drop start.length = removed ++ stop := by rw [old_eq, List.drop_left]
  have new_rest : new.drop start.length = added ++ stop := by rw [new_eq, List.drop_left]
  have some_differ : ¬ (start.length = old.length ∧ start.length = new.length) := by
    rintro ⟨old_length, new_length⟩
    rw [old_length, List.drop_length] at old_rest
    rw [new_length, List.drop_length] at new_rest
    exact differ (by rw [old_eq, new_eq, ← old_rest, ← new_rest])
  have end_eq : sharedEnd old new = stop.length := by
    rw [sharedEnd, start_eq, old_rest, new_rest, stop_eq]
  refine ⟨start, removed, added, stop, old_eq, new_eq, start_eq, end_eq, ?_, ?_, last_differ⟩
  · have shown_start : old.take start.length = start := by rw [old_eq, List.take_left]
    simp only [between?, start_eq, if_neg some_differ, old_rest, new_rest, stop_eq, shown_start,
      List.length_append, Nat.add_sub_cancel, List.take_left, List.drop_left]
  · intro a a_first b b_first
    refine first_differ a ?_ b ?_
    · rw [List.head?_append, Option.mem_def.mp a_first]
      rfl
    · rw [List.head?_append, Option.mem_def.mp b_first]
      rfl

end Shared

/-- The lines from an index up to another, if these are indices of the list in this order. -/
def slice? (lines : List Text) (first stop : Nat) : Option (List Text) :=
  if first ≤ stop ∧ stop ≤ lines.length then some ((lines.take stop).drop first) else none

theorem slice?_append (front part rest : List Text) {first stop : Nat}
    (first_eq : front.length = first) (stop_eq : first + part.length = stop) :
    slice? (front ++ (part ++ rest)) first stop = some part := by
  subst first_eq stop_eq
  have fits : front.length + part.length ≤ (front ++ (part ++ rest)).length := by
    simp only [List.length_append]
    omega
  rw [slice?, if_pos ⟨Nat.le_add_right _ _, fits⟩, ← List.append_assoc, ← List.length_append,
    List.take_left, List.drop_left]

theorem mem_of_mem_slice? {lines part : List Text} {first stop : Nat}
    (cut : slice? lines first stop = some part) {line : Text} (member : line ∈ part) :
    line ∈ lines := by
  rw [slice?] at cut
  split at cut
  · obtain rfl := Option.some.inj cut
    exact List.mem_of_mem_take (List.mem_of_mem_drop member)
  · contradiction

/-- A list with one block of lines in place of another that stands at an index, if it does. -/
def exchanged? (first : Nat) (block replacement lines : List Text) : Option (List Text) :=
  if first ≤ lines.length ∧ block <+: lines.drop first then
    some (lines.take first ++ (replacement ++ lines.drop (first + block.length)))
  else none

theorem exchanged?_append (front block replacement rest : List Text) :
    exchanged? front.length block replacement (front ++ (block ++ rest)) =
      some (front ++ (replacement ++ rest)) := by
  have stands : block <+: (front ++ (block ++ rest)).drop front.length := by
    rw [List.drop_left]
    exact List.prefix_append block rest
  have fits : front.length ≤ (front ++ (block ++ rest)).length := by simp
  rw [exchanged?, if_pos ⟨fits, stands⟩, List.take_left, ← List.drop_drop, List.drop_left,
    List.drop_left]

/-- The lines printed for a hunk, each behind its mark. -/
def shown (h : Hunk) : List Text :=
  h.lead.map (' ' :: ·) ++ h.removed.map ('-' :: ·) ++ h.added.map ('+' :: ·) ++
    h.trail.map (' ' :: ·)

/-- The lines printed behind one of some marks, without it. -/
def behind (marks : List Char) (shown : List Text) : List Text :=
  shown.filterMap fun line =>
    match line with
    | [] => none
    | mark :: text => if mark ∈ marks then some text else none

/-- What is printed in front of the lines of a hunk. -/
def heading (path : Text) (line oldCount newCount : Nat) : Text :=
  "--- a/" ++ path ++ "\n+++ b/" ++ path ++ "\n" ++
    "@@ -" ++ Text.decimal line ++ "," ++ Text.decimal oldCount ++
    " +" ++ Text.decimal line ++ "," ++ Text.decimal newCount ++ " @@\n"

theorem behind_append (marks : List Char) (front rest : List Text) :
    behind marks (front ++ rest) = behind marks front ++ behind marks rest :=
  List.filterMap_append

theorem behind_map (marks : List Char) (mark : Char) (lines : List Text) :
    behind marks (lines.map (mark :: ·)) = if mark ∈ marks then lines else [] := by
  induction lines with
  | nil => simp [behind]
  | cons line lines ih =>
      rw [List.map_cons, ← List.singleton_append, behind_append, ih]
      by_cases counted : mark ∈ marks
      · simp [behind, counted]
      · simp [behind, counted]

theorem behind_shown (marks : List Char) (h : Hunk) :
    behind marks h.shown =
      (if ' ' ∈ marks then h.lead else []) ++ (if '-' ∈ marks then h.removed else []) ++
        (if '+' ∈ marks then h.added else []) ++ (if ' ' ∈ marks then h.trail else []) := by
  simp only [shown, behind_append, behind_map]

theorem marked_eq (mark : Char) (lines : List Text) :
    marked mark lines = (lines.map (mark :: ·)).flatMap (· ++ ['\n']) := by
  rw [marked, List.flatMap_map]

/-- What is printed are a heading, with the numbers of lines printed for either side, and the
lines. -/
theorem render_eq (path : Text) (h : Hunk) :
    h.render path =
      heading path (h.first + 1) (behind [' ', '-'] h.shown).length
        (behind [' ', '+'] h.shown).length ++ h.shown.flatMap (· ++ ['\n']) := by
  have old_count : (behind [' ', '-'] h.shown).length = h.oldCount := by
    simp [behind_shown, oldCount, Nat.add_assoc]
  have new_count : (behind [' ', '+'] h.shown).length = h.newCount := by
    simp [behind_shown, newCount, Nat.add_assoc]
  have lines_eq : h.shown.flatMap (· ++ ['\n']) =
      marked ' ' h.lead ++ marked '-' h.removed ++ marked '+' h.added ++ marked ' ' h.trail := by
    simp only [shown, List.flatMap_append, marked_eq]
  rw [old_count, new_count, lines_eq, ← List.append_assoc, ← List.append_assoc,
    ← List.append_assoc]
  rfl

/-- The indices from which a hunk is cut out of two lists: `changed` lines are shared at the start
and `kept` lines at the end. -/
structure IsCutFrom (h : Hunk) (old new : List Text) (changed kept : Nat) : Prop where
  old_fits : changed + kept ≤ old.length
  new_fits : changed + kept ≤ new.length
  lead : slice? old h.first changed = some h.lead
  removed : slice? old changed (old.length - kept) = some h.removed
  added : slice? new changed (new.length - kept) = some h.added
  trail : slice? old (old.length - kept) (old.length - kept + min kept contextLines) = some h.trail
  old_count : h.first + h.oldCount = old.length - kept + min kept contextLines
  new_count : h.first + h.newCount = new.length - kept + min kept contextLines

/-- Lines that are printed are lines, as those are that they show. -/
theorem newline_not_mem_shown {h : Hunk} {old new : List Text} {changed kept : Nat}
    (cut : h.IsCutFrom old new changed kept) (old_free : ∀ text ∈ old, '\n' ∉ text)
    (new_free : ∀ text ∈ new, '\n' ∉ text) : ∀ line ∈ h.shown, '\n' ∉ line := by
  have behind_mark {mark : Char} {part : List Text} (mark_ne : '\n' ≠ mark)
      (free : ∀ text ∈ part, '\n' ∉ text) : ∀ line ∈ part.map (mark :: ·), '\n' ∉ line := by
    intro line member
    obtain ⟨text, text_mem, rfl⟩ := List.mem_map.mp member
    exact fun inside => (List.mem_cons.mp inside).elim mark_ne (free text text_mem)
  simp only [shown, List.forall_mem_append]
  refine ⟨⟨⟨?_, ?_⟩, ?_⟩, ?_⟩
  · exact behind_mark (by decide) fun _ member => old_free _ (mem_of_mem_slice? cut.lead member)
  · exact behind_mark (by decide) fun _ member => old_free _ (mem_of_mem_slice? cut.removed member)
  · exact behind_mark (by decide) fun _ member => new_free _ (mem_of_mem_slice? cut.added member)
  · exact behind_mark (by decide) fun _ member => old_free _ (mem_of_mem_slice? cut.trail member)

/-- The lines printed for a hunk make a patch that turns one list into another and says no more than
it has to. -/
structure IsPatch (h : Hunk) (old new : List Text) : Prop where
  /-- The new side stands where the old side stood. -/
  applies : exchanged? h.first (behind [' ', '-'] h.shown) (behind [' ', '+'] h.shown) old =
    some new
  first_differ : ∀ a ∈ (behind ['-'] h.shown).head?, ∀ b ∈ (behind ['+'] h.shown).head?, a ≠ b
  last_differ :
    ∀ a ∈ (behind ['-'] h.shown).getLast?, ∀ b ∈ (behind ['+'] h.shown).getLast?, a ≠ b

section Parts

variable {front lead removed added trail rest : List Text}

theorem isCutFrom_of_parts
    (trail_length : min (trail.length + rest.length) contextLines = trail.length) :
    IsCutFrom ⟨front.length, lead, removed, added, trail⟩
      (front ++ lead ++ (removed ++ (trail ++ rest))) (front ++ lead ++ (added ++ (trail ++ rest)))
      (front.length + lead.length) (trail.length + rest.length) := by
  have old_stop : (front ++ lead ++ (removed ++ (trail ++ rest))).length -
      (trail.length + rest.length) = front.length + lead.length + removed.length := by
    simp only [List.length_append]
    omega
  have new_stop : (front ++ lead ++ (added ++ (trail ++ rest))).length -
      (trail.length + rest.length) = front.length + lead.length + added.length := by
    simp only [List.length_append]
    omega
  have changed_eq : (front ++ lead).length = front.length + lead.length := List.length_append
  refine ⟨?_, ?_, ?_, ?_, ?_, ?_, ?_, ?_⟩
  · simp only [List.length_append]
    omega
  · simp only [List.length_append]
    omega
  · rw [List.append_assoc]
    exact slice?_append front lead _ rfl rfl
  · rw [old_stop]
    exact slice?_append (front ++ lead) removed _ changed_eq rfl
  · rw [new_stop]
    exact slice?_append (front ++ lead) added _ changed_eq rfl
  · rw [old_stop, trail_length, ← List.append_assoc]
    refine slice?_append (front ++ lead ++ removed) trail rest ?_ rfl
    rw [List.length_append, changed_eq]
  · rw [old_stop, trail_length, oldCount]
    dsimp only
    omega
  · rw [new_stop, trail_length, newCount]
    dsimp only
    omega

theorem isPatch_of_parts (first_differ : ∀ a ∈ removed.head?, ∀ b ∈ added.head?, a ≠ b)
    (last_differ : ∀ a ∈ removed.getLast?, ∀ b ∈ added.getLast?, a ≠ b) :
    IsPatch ⟨front.length, lead, removed, added, trail⟩
      (front ++ lead ++ (removed ++ (trail ++ rest)))
      (front ++ lead ++ (added ++ (trail ++ rest))) := by
  let h : Hunk := ⟨front.length, lead, removed, added, trail⟩
  have removed_eq : behind ['-'] h.shown = removed := by simp [h, behind_shown]
  have added_eq : behind ['+'] h.shown = added := by simp [h, behind_shown]
  have old_side : behind [' ', '-'] h.shown = lead ++ removed ++ trail := by
    simp [h, behind_shown]
  have new_side : behind [' ', '+'] h.shown = lead ++ added ++ trail := by
    simp [h, behind_shown]
  have applies := exchanged?_append front (lead ++ removed ++ trail) (lead ++ added ++ trail) rest
  simp only [List.append_assoc] at applies old_side new_side ⊢
  refine ⟨?_, ?_, ?_⟩
  · rw [old_side, new_side, applies]
  · rwa [removed_eq, added_eq]
  · rwa [removed_eq, added_eq]

end Parts

/-- Between lists that differ there is a hunk, cut out of them at indices in their order and within
them, and it is a patch. -/
theorem exists_between? {old new : List Text} (differ : old ≠ new) :
    ∃ h, between? old new = some h ∧
      h.IsCutFrom old new (sharedStart old new) (sharedEnd old new) ∧ h.IsPatch old new := by
  obtain ⟨start, removed, added, stop, rfl, rfl, start_eq, end_eq, found, first_differ,
    last_differ⟩ := exists_parts differ
  rw [start_eq, end_eq]
  obtain ⟨front, lead, start_parts, first_eq, lead_eq⟩ : ∃ front lead, start = front ++ lead ∧
      start.length - contextLines = front.length ∧
      start.drop (start.length - contextLines) = lead :=
    ⟨_, _, (List.take_append_drop _ _).symm, (List.length_take_of_le (Nat.sub_le _ _)).symm, rfl⟩
  obtain ⟨trail, rest, stop_parts, trail_eq⟩ : ∃ trail rest, stop = trail ++ rest ∧
      stop.take contextLines = trail := ⟨_, _, (List.take_append_drop _ _).symm, rfl⟩
  have trail_length : min stop.length contextLines = trail.length := by
    rw [← trail_eq, List.length_take, Nat.min_comm]
  rw [lead_eq, first_eq, trail_eq] at found
  subst start_parts stop_parts
  rw [List.length_append] at trail_length
  refine ⟨_, found, ?_, isPatch_of_parts first_differ last_differ⟩
  rw [List.length_append, List.length_append]
  exact isCutFrom_of_parts trail_length

/-- The preview of a change is a patch for it: the lines printed turn the lines of the old text into
those of the new one, the heading counts the lines printed for either side and names the first of
them, and the change starts and ends with a difference.  Nothing is printed when the lines are the
same. -/
theorem preview_is_patch (path old new : Text) :
    (Line.preview old = Line.preview new →
      between? (Line.preview old) (Line.preview new) = none ∧ preview path old new = []) ∧
    (Line.preview old ≠ Line.preview new →
      ∃ h, between? (Line.preview old) (Line.preview new) = some h ∧
        h.IsCutFrom (Line.preview old) (Line.preview new)
          (sharedStart (Line.preview old) (Line.preview new))
          (sharedEnd (Line.preview old) (Line.preview new)) ∧
        h.IsPatch (Line.preview old) (Line.preview new) ∧
        (∀ line ∈ h.shown, '\n' ∉ line) ∧
        preview path old new =
          heading path (h.first + 1) (behind [' ', '-'] h.shown).length
            (behind [' ', '+'] h.shown).length ++ h.shown.flatMap (· ++ ['\n'])) := by
  constructor
  · intro same
    rw [preview, same, between?_self]
    exact ⟨rfl, rfl⟩
  · intro differ
    obtain ⟨h, found, cut, patch⟩ := exists_between? differ
    refine ⟨h, found, cut, patch, ?_, ?_⟩
    · exact newline_not_mem_shown cut (fun _ => Line.newline_not_mem_of_mem_preview)
        fun _ => Line.newline_not_mem_of_mem_preview
    · rw [preview, found, Option.map_some, Option.getD_some, render_eq]

/-- A text whose end repeats its start, so that what is shared at both ends could meet. -/
theorem preview_is_patch_of_repeated :
    Line.preview "a\nb\na\nb\n" ≠ Line.preview "a\nb\n" ∧
    ∃ h, between? (Line.preview "a\nb\na\nb\n") (Line.preview "a\nb\n") = some h ∧
      h.IsCutFrom (Line.preview "a\nb\na\nb\n") (Line.preview "a\nb\n") 2 0 ∧
      h.IsPatch (Line.preview "a\nb\na\nb\n") (Line.preview "a\nb\n") := by
  have differ : Line.preview "a\nb\na\nb\n" ≠ Line.preview "a\nb\n" := by decide
  obtain ⟨h, found, cut, patch, -, -⟩ :=
    (preview_is_patch "a.ts" "a\nb\na\nb\n" "a\nb\n").2 differ
  exact ⟨differ, h, found, cut, patch⟩

end Hunk

end LintRepair
