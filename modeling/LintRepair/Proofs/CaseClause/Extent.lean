import Mathlib.Data.Option.Basic
import LintRepair.Proofs.Document.LineEdits
import LintRepair.Proofs.Repair.CaseClause
import LintRepair.Proofs.Text.Blank

/-!
# The extent of a case clause

The clause that a line lies in starts at the nearest label at or above the line.  Its body goes on
to the next label or closing brace that is indented no deeper than the label, or to the end of the
document; behind the last line of the body only blank lines stand before that.  The search for a
clause with a body finds exactly this extent.
-/

namespace LintRepair

namespace CaseClause

open Text

section Label

variable {line rest : Text}

theorem isLabel_iff : isLabel line ↔
    (∃ rest, line = "case" ++ rest ∧ isBoundary (some 'e') rest ∧ ':' ∈ rest) ∨
      ∃ gap rest, line = "default" ++ (gap ++ ':' :: rest) ∧ ∀ c ∈ gap, isBlank c := by
  simp only [isLabel, Bool.or_eq_true, Option.any_eq_true, afterWordEnd?, Option.filter_eq_some_iff,
    after?_eq_some_iff, startsWith_iff, List.contains_iff_mem]
  refine or_congr ?_ ⟨?_, ?_⟩
  · constructor
    · rintro ⟨rest, ⟨parts, ends⟩, colon⟩
      exact ⟨rest, parts, ends, colon⟩
    · rintro ⟨rest, parts, ends, colon⟩
      exact ⟨rest, ⟨parts, ends⟩, colon⟩
  · rintro ⟨behind, parts, rest, colon⟩
    refine ⟨indentation behind, rest, ?_, fun _ => blank_of_mem_indentation⟩
    calc
      line = "default" ++ (indentation behind ++ trimStart behind) := by
        rw [parts, indentation_append_trimStart]
      _ = "default" ++ (indentation behind ++ ':' :: rest) := by
        rw [← colon]
        rfl
  · rintro ⟨gap, rest, parts, blank⟩
    refine ⟨gap ++ ':' :: rest, parts, rest, ?_⟩
    rw [trimStart_append_cons blank (by decide)]
    rfl

/-- What follows on the line does not take a label away. -/
theorem isLabel_append (label : isLabel line) (behind : Text) : isLabel (line ++ behind) := by
  rw [isLabel_iff] at label ⊢
  rcases label with ⟨rest, rfl, ends, colon⟩ | ⟨gap, rest, rfl, blank⟩
  · refine .inl ⟨rest ++ behind, by simp, ?_, List.mem_append_left _ colon⟩
    obtain ⟨c, later, rfl⟩ := List.exists_cons_of_ne_nil (List.ne_nil_of_mem colon)
    exact ends
  · exact .inr ⟨gap, rest ++ behind, by simp, blank⟩

theorem not_isAllBlank_of_isLabel (label : isLabel (trim line)) : ¬ isAllBlank line := by
  intro blank
  rw [trim_eq_nil_iff.mpr (blank_of_isAllBlank blank)] at label
  contradiction

end Label

/-- A line ends the clause whose label is on the line `head`: it has a label or starts with a
closing brace, and it is indented no deeper. -/
def Closes (head line : Text) : Prop :=
  (isLabel (trim line) ∨ (trim line).head? = some '}') ∧
    byteSize (indentation line) ≤ byteSize (indentation head)

theorem isEnd_iff {head line : Text} :
    isEnd (byteSize (indentation head)) line ↔ Closes head line := by
  have brace : ['}'] <+: trim line ↔ (trim line).head? = some '}' := by
    cases trim line with
    | nil => simp
    | cons c rest => simp [eq_comm]
  simp only [isEnd, Closes, Bool.and_eq_true, Bool.or_eq_true, decide_eq_true_eq, startsWith_iff,
    brace]

theorem not_isEnd_of_isAllBlank {width : Nat} {line : Text} (blank : isAllBlank line) :
    ¬ isEnd width line := by
  rw [isEnd, trim_eq_nil_iff.mpr (blank_of_isAllBlank blank)]
  simp [isLabel, afterWordEnd?, after?, startsWith]

/-- The lines of a document, cut around the body of the clause that a line lies in. -/
structure Extent (texts : List Text) (line : Nat) where
  /-- Lines above the label. -/
  above : List Text
  /-- Line of the label. -/
  head : Text
  /-- Lines of the body before its last one. -/
  inner : List Text
  /-- Last line of the body that is not blank. -/
  last : Text
  /-- Blank lines behind it. -/
  blanks : List Text
  /-- Lines from the end of the clause on. -/
  below : List Text
  /-- The parts are all lines of the document. -/
  texts_eq : texts = above ++ head :: (inner ++ last :: (blanks ++ below))
  /-- The label is one. -/
  labelled : isLabel (trim head)
  /-- The label is not below the line. -/
  label_le : above.length ≤ line
  /-- The line is in reach of the label. -/
  reached : line ≤ above.length + maxLabelDistance
  /-- No label is nearer. -/
  nearest : ∀ text ∈ (inner ++ last :: (blanks ++ below)).take (line - above.length),
    ¬ isLabel (trim text)
  /-- The clause does not end before the last line of its body. -/
  inside : ∀ text ∈ inner ++ [last], ¬ Closes head text
  /-- The last line of the body is not blank. -/
  visible : ¬ isAllBlank last
  /-- Only blank lines follow in the clause. -/
  blank : ∀ text ∈ blanks, isAllBlank text
  /-- What follows ends the clause. -/
  closed : ∀ text ∈ below.head?, Closes head text

namespace Extent

variable {texts : List Text} {line : Nat} (extent : Extent texts line)

theorem drop_label : texts.drop (extent.above.length + 1) =
    extent.inner ++ extent.last :: (extent.blanks ++ extent.below) := by
  obtain ⟨above, head, inner, last, blanks, below, rfl⟩ := extent
  simp

theorem getElem?_label : texts[extent.above.length]? = some extent.head := by
  obtain ⟨above, head, inner, last, blanks, below, rfl⟩ := extent
  simp

theorem getElem?_last :
    texts[extent.above.length + 1 + extent.inner.length]? = some extent.last := by
  rw [← List.getElem?_drop, extent.drop_label]
  simp

theorem take_last : texts.take (extent.above.length + 1 + extent.inner.length + 1) =
    extent.above ++ extent.head :: (extent.inner ++ [extent.last]) := by
  have parts : texts = extent.above ++ extent.head :: (extent.inner ++ [extent.last]) ++
      (extent.blanks ++ extent.below) := by
    simpa using extent.texts_eq
  refine (congrArg (List.take _) parts).trans (List.take_left' ?_)
  simp only [List.length_append, List.length_cons, List.length_nil]
  omega

theorem drop_last : texts.drop (extent.above.length + 1 + extent.inner.length + 1) =
    extent.blanks ++ extent.below := by
  rw [Nat.add_assoc _ extent.inner.length, ← List.drop_drop, extent.drop_label]
  simp

theorem not_isLabel {i : Nat} {text : Text} (after : extent.above.length < i) (upto : i ≤ line)
    (here : texts[i]? = some text) : ¬ isLabel (trim text) := by
  obtain ⟨j, rfl⟩ := Nat.exists_eq_add_of_le after
  rw [← List.getElem?_drop, extent.drop_label] at here
  obtain ⟨j_lt, rfl⟩ := List.getElem?_eq_some_iff.mp here
  exact extent.nearest _ (List.mem_take_iff_getElem.mpr ⟨j, by omega, rfl⟩)

end Extent

section Body

variable {width index last : Nat} {lines : List Text} {line : Text}

theorem body_of_isAllBlank (blank : isAllBlank line) :
    body width index (line :: lines) = body width (index + 1) lines := by
  rw [body, if_pos blank]

theorem body_of_isEnd (ends : isEnd width line) :
    body width index (line :: lines) = (none, none) := by
  rw [body, if_neg (fun blank => not_isEnd_of_isAllBlank blank ends), if_pos ends]

theorem body_of_inside (visible : ¬ isAllBlank line) (inside : ¬ isEnd width line) :
    body width index (line :: lines) =
      (some (indentation line), some ((body width (index + 1) lines).2.getD index)) := by
  rw [body, if_neg visible, if_neg inside]

theorem exists_of_bodyIndent {indent : Text} (found : (body width index lines).1 = some indent) :
    ∃ text ∈ lines, indent = indentation text := by
  induction lines generalizing index with
  | nil => contradiction
  | cons line lines ih =>
      by_cases blank : isAllBlank line
      · rw [body_of_isAllBlank blank] at found
        obtain ⟨text, member, indent_eq⟩ := ih found
        exact ⟨text, List.mem_cons_of_mem _ member, indent_eq⟩
      · by_cases ends : isEnd width line
        · rw [body_of_isEnd ends] at found
          contradiction
        · rw [body_of_inside blank ends] at found
          obtain rfl := Option.some.inj found
          exact ⟨line, List.mem_cons_self, rfl⟩

/-- Without a body there are only blank lines up to the end of the clause. -/
theorem exists_of_body_eq_none (absent : (body width index lines).2 = none) :
    ∃ blanks below, lines = blanks ++ below ∧ (∀ text ∈ blanks, isAllBlank text) ∧
      ∀ text ∈ below.head?, isEnd width text := by
  induction lines generalizing index with
  | nil => exact ⟨[], [], rfl, by simp, by simp⟩
  | cons line lines ih =>
      by_cases blank : isAllBlank line
      · rw [body_of_isAllBlank blank] at absent
        obtain ⟨blanks, below, rfl, all_blank, closed⟩ := ih absent
        exact ⟨line :: blanks, below, rfl, List.forall_mem_cons.mpr ⟨blank, all_blank⟩, closed⟩
      · by_cases ends : isEnd width line
        · exact ⟨[], line :: lines, rfl, by simp, by simpa using ends⟩
        · rw [body_of_inside blank ends] at absent
          contradiction

theorem exists_of_body_eq_some (found : (body width index lines).2 = some last) :
    ∃ inner line blanks below, lines = inner ++ line :: (blanks ++ below) ∧
      last = index + inner.length ∧ (∀ text ∈ inner ++ [line], ¬ isEnd width text) ∧
      ¬ isAllBlank line ∧ (∀ text ∈ blanks, isAllBlank text) ∧
      ∀ text ∈ below.head?, isEnd width text := by
  induction lines generalizing index last with
  | nil => contradiction
  | cons first lines ih =>
      have onward (inside : ¬ isEnd width first)
          (later : (body width (index + 1) lines).2 = some last) :
          ∃ inner line blanks below, first :: lines = inner ++ line :: (blanks ++ below) ∧
            last = index + inner.length ∧ (∀ text ∈ inner ++ [line], ¬ isEnd width text) ∧
            ¬ isAllBlank line ∧ (∀ text ∈ blanks, isAllBlank text) ∧
            ∀ text ∈ below.head?, isEnd width text := by
        obtain ⟨inner, line, blanks, below, rfl, rfl, all_inside, rest⟩ := ih later
        refine ⟨first :: inner, line, blanks, below, rfl, ?_, ?_, rest⟩
        · rw [List.length_cons]
          omega
        · exact List.forall_mem_cons.mpr ⟨inside, all_inside⟩
      by_cases blank : isAllBlank first
      · rw [body_of_isAllBlank blank] at found
        exact onward (not_isEnd_of_isAllBlank blank) found
      · by_cases ends : isEnd width first
        · rw [body_of_isEnd ends] at found
          contradiction
        · rw [body_of_inside blank ends] at found
          cases tail : (body width (index + 1) lines).2 with
          | none =>
              obtain rfl : index = last := by simpa [tail] using found
              obtain ⟨blanks, below, rfl, all_blank, closed⟩ := exists_of_body_eq_none tail
              exact ⟨[], first, blanks, below, rfl, rfl, by simpa using ends, blank, all_blank,
                closed⟩
          | some later =>
              obtain rfl : later = last := by simpa [tail] using found
              exact onward ends tail

theorem body_eq_none {blanks below : List Text} (blank : ∀ text ∈ blanks, isAllBlank text)
    (closed : ∀ text ∈ below.head?, isEnd width text) :
    (body width index (blanks ++ below)).2 = none := by
  induction blanks generalizing index with
  | nil =>
      cases below with
      | nil => rfl
      | cons line below => rw [List.nil_append, body_of_isEnd (closed line rfl)]
  | cons line blanks ih =>
      obtain ⟨first, later⟩ := List.forall_mem_cons.mp blank
      rw [List.cons_append, body_of_isAllBlank first, ih later]

theorem body_eq_some {inner blanks below : List Text}
    (inside : ∀ text ∈ inner ++ [line], ¬ isEnd width text) (visible : ¬ isAllBlank line)
    (blank : ∀ text ∈ blanks, isAllBlank text) (closed : ∀ text ∈ below.head?, isEnd width text) :
    (body width index (inner ++ line :: (blanks ++ below))).2 = some (index + inner.length) := by
  induction inner generalizing index with
  | nil =>
      rw [List.nil_append, body_of_inside visible (inside line (by simp)),
        body_eq_none blank closed]
      rfl
  | cons first inner ih =>
      obtain ⟨first_inside, later_inside⟩ := List.forall_mem_cons.mp inside
      have later : (body width (index + 1) (inner ++ line :: (blanks ++ below))).2 =
          some (index + (first :: inner).length) := by
        rw [ih later_inside, List.length_cons, Nat.add_right_comm, Nat.add_assoc]
      rw [List.cons_append]
      by_cases first_blank : isAllBlank first
      · rw [body_of_isAllBlank first_blank, later]
      · rw [body_of_inside first_blank first_inside, later]
        rfl

end Body

section Enclosing

variable {d : Document} {line : Nat} {clause : CaseClause}

/-- The last index of a range that passes a test. -/
theorem find?_reverse_range' {p : Nat → Bool} {first count found : Nat} :
    (List.range' first count).reverse.find? p = some found ↔
      p found ∧ first ≤ found ∧ found < first + count ∧
        ∀ i, found < i → i < first + count → ¬ p i := by
  rw [List.find?_eq_some_iff_getElem]
  simp only [List.length_reverse, List.length_range', List.getElem_reverse, List.getElem_range',
    Nat.one_mul]
  refine and_congr_right fun passes => ⟨?_, ?_⟩
  · rintro ⟨i, i_lt, rfl, failing⟩
    refine ⟨by omega, by omega, fun j above below => ?_⟩
    have fails := failing (first + count - 1 - j) (by omega)
    rw [show first + (count - 1 - (first + count - 1 - j)) = j by omega] at fails
    simpa using fails
  · rintro ⟨above, below, failing⟩
    refine ⟨first + count - 1 - found, by omega, by omega, fun j j_lt => ?_⟩
    have fails := failing (first + (count - 1 - j)) (by omega) (by omega)
    simpa using fails

theorem enclosing?_eq_some_iff :
    enclosing? d line = some clause ↔
      ∃ head, d.line? clause.label = some head ∧ isLabel (trim head) ∧ clause.label ≤ line ∧
        line ≤ clause.label + maxLabelDistance ∧
        (∀ i, clause.label < i → i ≤ line → ∀ text ∈ d.line? i, ¬ isLabel (trim text)) ∧
        clause.indent = indentation head ∧
        body (byteSize (indentation head)) (clause.label + 1) (d.texts.drop (clause.label + 1)) =
          (clause.bodyIndent, clause.lastLine) := by
  obtain ⟨label, indent, bodyIndent, lastLine⟩ := clause
  simp only [enclosing?, Option.bind_eq_bind, Option.bind_eq_some_iff, find?_reverse_range',
    Option.any_eq_true, Option.pure_def, Option.some.injEq, mk.injEq, Document.texts,
    List.map_drop]
  constructor
  · rintro ⟨label, ⟨⟨head, found, labelled⟩, above, below, nearest⟩, _, same, rfl, rfl, rfl, rfl⟩
    obtain rfl := Option.some.inj (found.symm.trans same)
    refine ⟨head, found, labelled, by omega, by omega, fun i after upto text here is_label => ?_,
      rfl, rfl⟩
    exact nearest i after (by omega) ⟨text, here, is_label⟩
  · rintro ⟨head, found, labelled, above, reached, nearest, rfl, body_eq⟩
    refine ⟨label, ⟨⟨head, found, labelled⟩, by omega, by omega, ?_⟩, head, found, rfl, rfl, ?_, ?_⟩
    · rintro i after upto ⟨text, here, is_label⟩
      exact nearest i after (by omega) text here is_label
    · rw [body_eq]
    · rw [body_eq]

/-- A clause with a body is found with its extent. -/
theorem exists_extent (found : enclosing? d line = some clause) {last : Nat}
    (last_found : clause.lastLine = some last) :
    ∃ extent : Extent d.texts line, clause.label = extent.above.length ∧
      clause.indent = indentation extent.head ∧
      last = extent.above.length + 1 + extent.inner.length := by
  obtain ⟨head, head_found, labelled, label_le, reached, nearest, indent_eq, body_eq⟩ :=
    enclosing?_eq_some_iff.mp found
  rw [← Document.getElem?_texts] at head_found
  obtain ⟨label_lt, head_eq⟩ := List.getElem?_eq_some_iff.mp head_found
  have body_last := congrArg Prod.snd body_eq
  rw [last_found] at body_last
  obtain ⟨inner, bodyLast, blanks, below, parts, last_eq, inside, visible, blank, closed⟩ :=
    exists_of_body_eq_some body_last
  have length_eq : (d.texts.take clause.label).length = clause.label :=
    List.length_take_of_le (Nat.le_of_lt label_lt)
  refine ⟨⟨d.texts.take clause.label, head, inner, bodyLast, blanks, below, ?_, labelled,
    by rwa [length_eq], by rwa [length_eq], ?_, ?_, visible, blank, ?_⟩, length_eq.symm,
    indent_eq, ?_⟩
  · rw [← parts, ← head_eq, ← List.drop_eq_getElem_cons label_lt, List.take_append_drop]
  · rw [length_eq, ← parts]
    intro text member
    obtain ⟨i, i_lt, rfl⟩ := List.mem_take_iff_getElem.mp member
    rw [List.length_drop] at i_lt
    refine nearest (clause.label + 1 + i) (by omega) (by omega) _ ?_
    rw [← Document.getElem?_texts, List.getElem_drop]
    exact List.getElem?_eq_getElem _
  · exact fun text member => mt isEnd_iff.mpr (inside text member)
  · exact fun text member => isEnd_iff.mp (closed text member)
  · change last = (d.texts.take clause.label).length + 1 + inner.length
    rw [last_eq, length_eq]

namespace Extent

theorem last_lt (extent : Extent d.texts line) :
    extent.above.length + 1 + extent.inner.length < d.lineCount := by
  rw [← Document.length_texts]
  exact (List.getElem?_eq_some_iff.mp extent.getElem?_last).1

/-- A clause with its extent is found. -/
theorem enclosing?_eq (extent : Extent d.texts line) : ∃ bodyIndent,
    enclosing? d line = some ⟨extent.above.length, indentation extent.head, bodyIndent,
      some (extent.above.length + 1 + extent.inner.length)⟩ ∧
    ∀ indent ∈ bodyIndent, ∃ text ∈ d.texts, indent = indentation text := by
  have body_last : (body (byteSize (indentation extent.head)) (extent.above.length + 1)
      (extent.inner ++ extent.last :: (extent.blanks ++ extent.below))).2 =
      some (extent.above.length + 1 + extent.inner.length) :=
    body_eq_some (fun text member => mt isEnd_iff.mp (extent.inside text member)) extent.visible
      extent.blank fun text member => isEnd_iff.mpr (extent.closed text member)
  rw [← extent.drop_label] at body_last
  let found := body (byteSize (indentation extent.head)) (extent.above.length + 1)
    (d.texts.drop (extent.above.length + 1))
  refine ⟨found.1, enclosing?_eq_some_iff.mpr ⟨extent.head, ?_, extent.labelled, extent.label_le,
    extent.reached, fun i after upto text here => ?_, rfl, Prod.ext rfl body_last⟩, ?_⟩
  · rw [← Document.getElem?_texts]
    exact extent.getElem?_label
  · rw [← Document.getElem?_texts] at here
    exact extent.not_isLabel after upto here
  · intro indent indent_found
    obtain ⟨text, member, indent_eq⟩ := exists_of_bodyIndent indent_found
    exact ⟨text, List.mem_of_mem_drop member, indent_eq⟩

end Extent

end Enclosing

/-- Of the first lines with one more among them, the others are first lines without it. -/
theorem mem_take_of_inserted {α : Type} {front back : List α} {added x : α} {n : Nat}
    (member : x ∈ (front ++ added :: back).take n) :
    x = added ∨ x ∈ (front ++ back).take n := by
  rw [List.take_append, List.mem_append] at member ⊢
  rcases member with in_front | behind
  · exact .inr (.inl in_front)
  · cases rest_eq : n - front.length with
    | zero => simp [rest_eq] at behind
    | succ rest =>
        rw [rest_eq, List.take_succ_cons, List.mem_cons] at behind
        refine behind.imp_right fun later => .inr ?_
        exact (List.take_subset_take_left back (Nat.le_succ rest)) later

end CaseClause

end LintRepair
