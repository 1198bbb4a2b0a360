import Mathlib.Data.Option.Basic
import LintRepair.Proofs.Document.Layout
import LintRepair.Proofs.Text.TopLevel
import LintRepair.Proofs.Text.Word
import LintRepair.Repair.Binding

/-!
# Declarations that fill a line

A one-line declaration is a keyword and bindings with commas between them.  It is read back as it
was written, and its bindings are cut at the commas outside brackets and strings: a binding that
holds such a comma itself, between the angle brackets of a type, is taken apart.
-/

namespace LintRepair

namespace Declaration

open Text Nesting

/-- A name, and behind it nothing, a type or an initial value. -/
structure Binding where
  /-- The declared name. -/
  name : Text
  /-- What follows the name. -/
  tail : Text
  nonempty : name ≠ []
  word : ∀ c ∈ name, isWord c || c = '$'
  marked : tail = [] ∨ ∃ blanks mark rest, tail = blanks ++ mark :: rest ∧
    (∀ c ∈ blanks, isBlank c) ∧ (mark = ':' ∨ mark = '=')
  /-- Brackets and strings are closed. -/
  balanced : isBalanced (name ++ tail)
  /-- A semicolon stands only inside brackets and strings. -/
  unended : splitTopLevel ';' (name ++ tail) = [name ++ tail]
  trimmed : trimEnd (name ++ tail) = name ++ tail

theorem comma_plain : IsPlain ',' := by decide

theorem gap_plain : ∀ c ∈ [' '], IsPlain c ∧ c ≠ ',' :=
  List.forall_mem_singleton.mpr (by decide)

namespace Binding

/-- What the binding is written as. -/
def text (binding : Binding) : Text := binding.name ++ binding.tail

/-- The trimmed texts between the commas outside brackets and strings, at least one. -/
def pieces (binding : Binding) : List Text := (splitTopLevel ',' binding.text).map trim

/-- The pieces but the first one. -/
def fragments (binding : Binding) : List Text := binding.pieces.tail

/-- No comma stands outside brackets and strings. -/
def IsWhole (binding : Binding) : Prop := binding.fragments = []

instance : DecidablePred IsWhole := fun binding =>
  inferInstanceAs (Decidable (binding.fragments = []))

/-- A space and nothing else stands behind each comma outside brackets and strings, and no blank in
front of it. -/
def IsEven (binding : Binding) : Prop := joined ", " binding.pieces = binding.text

instance : DecidablePred IsEven := fun binding =>
  inferInstanceAs (Decidable (joined ", " binding.pieces = binding.text))

variable {binding : Binding} {c : Char}

theorem exists_name_cons (binding : Binding) :
    ∃ c name, binding.name = c :: name ∧ isBlank c = false := by
  obtain ⟨c, name, name_eq⟩ := List.exists_cons_of_ne_nil binding.nonempty
  exact ⟨c, name, name_eq, visible_of_nameChar (binding.word c (by simp [name_eq]))⟩

theorem text_ne_nil : binding.text ≠ [] := by
  obtain ⟨c, name, name_eq, -⟩ := binding.exists_name_cons
  rw [text, name_eq]
  exact List.cons_ne_nil _ _

/-- Trimming a text that starts with the name takes blanks from its end only. -/
theorem trim_name_append (rest : Text) :
    trim (binding.name ++ rest) = trimEnd (binding.name ++ rest) := by
  obtain ⟨c, name, name_eq, visible⟩ := binding.exists_name_cons
  rw [trim, trimStart, name_eq, List.cons_append, List.dropWhile_cons_of_neg (by simp [visible])]

theorem trim_name : trim binding.name = binding.name := by
  obtain ⟨front, last, name_eq⟩ :=
    (List.eq_nil_or_concat binding.name).resolve_left binding.nonempty
  rw [List.concat_eq_append] at name_eq
  have visible := visible_of_nameChar (binding.word last (by simp [name_eq]))
  have trimmed := binding.trim_name_append []
  rw [List.append_nil] at trimmed
  rw [trimmed, name_eq]
  exact trimEnd_append_cons visible front []

theorem takeWhile_name_append (rest : Text) :
    (binding.name ++ rest).takeWhile (fun c => c ≠ '=' && c ≠ ':') =
      binding.name ++ rest.takeWhile fun c => c ≠ '=' && c ≠ ':' := by
  refine List.takeWhile_append_of_pos fun c member => ?_
  have apart := not_mem_delimiters_of_nameChar (binding.word c member)
  simp only [delimiters, List.mem_cons, List.not_mem_nil, or_false, not_or] at apart
  simp [apart]

theorem takeWhile_blanks_append {blanks : Text} {mark : Char} (blank : ∀ c ∈ blanks, isBlank c)
    (mark_eq : mark = ':' ∨ mark = '=') (rest : Text) :
    (blanks ++ mark :: rest).takeWhile (fun c => c ≠ '=' && c ≠ ':') = blanks := by
  have passed : ∀ c ∈ blanks, (c ≠ '=' && c ≠ ':') = true := by
    intro c member
    have c_blank := blank c member
    simp only [ne_eq, Bool.and_eq_true, decide_eq_true_eq]
    constructor <;>
    · rintro rfl
      exact absurd c_blank (by decide)
  rw [List.takeWhile_append_of_pos passed]
  rcases mark_eq with rfl | rfl <;> simp

theorem name_plain : ∀ c ∈ binding.name, IsPlain c ∧ c ≠ ',' := by
  intro c member
  have named := binding.word c member
  refine ⟨isPlain_of_nameChar named, ?_⟩
  rintro rfl
  exact absurd named (by decide)

/-- The first piece declares the name of the binding. -/
theorem exists_pieces :
    ∃ head, binding.pieces = head :: binding.fragments ∧ bindingName head = binding.name := by
  rcases binding.marked with bare | ⟨blanks, mark, rest, tail_eq, blank, mark_eq⟩
  · have whole : binding.pieces = [binding.name] := by
      rw [pieces, text, bare, List.append_nil, splitTopLevel_of_isPlain binding.name_plain,
        List.map_singleton, trim_name]
    refine ⟨binding.name, by rw [fragments, whole]; rfl, ?_⟩
    have taken := binding.takeWhile_name_append []
    rw [List.append_nil] at taken
    rw [bindingName, taken, List.takeWhile_nil, List.append_nil, trim_name]
  · -- Up to the mark nothing is opened, so the first piece holds it.
    have mark_visible : isBlank mark = false := by rcases mark_eq with rfl | rfl <;> decide
    have mark_plain : IsPlain mark ∧ mark ≠ ',' := by rcases mark_eq with rfl | rfl <;> decide
    have lead_plain : ∀ c ∈ binding.name ++ (blanks ++ [mark]), IsPlain c ∧ c ≠ ',' := by
      intro c member
      rcases List.mem_append.mp member with in_name | behind
      · exact binding.name_plain c in_name
      · rcases List.mem_append.mp behind with in_blanks | is_mark
        · refine ⟨isPlain_of_isBlank (blank c in_blanks), ?_⟩
          rintro rfl
          exact absurd (blank _ in_blanks) (by decide)
        · exact List.mem_singleton.mp is_mark ▸ mark_plain
    obtain ⟨first, later, cut⟩ :=
      List.exists_cons_of_ne_nil (splitTopLevel_ne_nil ',' rest)
    have text_cut := splitTopLevel_append_of_whole
      (isBalanced_of_isPlain fun c member => (lead_plain c member).1)
      (splitTopLevel_of_isPlain lead_plain) cut
    have text_eq : binding.text = binding.name ++ (blanks ++ [mark]) ++ rest := by
      simp [text, tail_eq]
    refine ⟨trim (binding.name ++ (blanks ++ [mark]) ++ first), ?_, ?_⟩
    · rw [fragments, pieces, text_eq, text_cut]
      rfl
    · have head_eq : trim (binding.name ++ (blanks ++ [mark]) ++ first) =
          binding.name ++ (blanks ++ mark :: trimEnd first) := by
        rw [List.append_assoc, trim_name_append, List.append_assoc, ← List.append_assoc,
          List.singleton_append, trimEnd_append_cons mark_visible, List.append_assoc]
      rw [head_eq, bindingName, takeWhile_name_append, takeWhile_blanks_append blank mark_eq,
        trim_append_blanks blank, trim_name]

theorem pieces_ne_nil : binding.pieces ≠ [] := by
  obtain ⟨head, cut, -⟩ := binding.exists_pieces
  rw [cut]
  exact List.cons_ne_nil _ _

/-- Each piece is balanced and holds no comma to cut at. -/
theorem piece_of_mem_pieces {piece : Text} (member : piece ∈ binding.pieces) :
    isBalanced piece ∧ splitTopLevel ',' piece = [piece] := by
  obtain ⟨cut, cut_mem, rfl⟩ := List.mem_map.mp member
  have balanced := isBalanced_of_mem_splitTopLevel comma_plain binding.balanced cut_mem
  exact ⟨isBalanced_trim balanced,
    splitTopLevel_trim_of_whole (by decide) (whole_of_mem_splitTopLevel cut_mem)⟩

theorem isBalanced_joined_pieces : isBalanced (joined ", " binding.pieces) := by
  have plain : ∀ c ∈ [',', ' '], IsPlain c :=
    List.forall_mem_cons.mpr ⟨comma_plain, fun c member => (gap_plain c member).1⟩
  exact isBalanced_joined plain fun _ member => (binding.piece_of_mem_pieces member).1

theorem length_splitTopLevel_joined_pieces :
    (splitTopLevel ',' (joined ", " binding.pieces)).length =
      (splitTopLevel ',' binding.text).length := by
  have counted := length_splitTopLevel_joined_of_whole comma_plain gap_plain pieces_ne_nil
    (fun _ member => (binding.piece_of_mem_pieces member).1)
    (fun _ member => (binding.piece_of_mem_pieces member).2)
  exact counted.trans (List.length_map _)

end Binding

/-- A binding with the blanks around it. -/
structure Padded where
  /-- Blanks in front. -/
  lead : Text
  /-- The binding. -/
  binding : Binding
  /-- Blanks behind. -/
  trail : Text
  lead_blank : ∀ c ∈ lead, isBlank c
  trail_blank : ∀ c ∈ trail, isBlank c

/-- What the binding is written as, with its blanks. -/
def Padded.text (padded : Padded) : Text := padded.lead ++ (padded.binding.text ++ padded.trail)

namespace Padded

variable (padded : Padded)

theorem isBalanced_text : isBalanced padded.text :=
  isBalanced_append (isBalanced_of_isBlank padded.lead_blank)
    (isBalanced_append padded.binding.balanced (isBalanced_of_isBlank padded.trail_blank))

theorem unended_text : splitTopLevel ';' padded.text = [padded.text] :=
  splitTopLevel_padded_of_whole (by decide) padded.binding.unended padded.lead_blank
    padded.trail_blank

theorem map_trim_splitTopLevel_text :
    (splitTopLevel ',' padded.text).map trim = padded.binding.pieces :=
  map_trim_splitTopLevel_padded (by decide) padded.lead_blank padded.trail_blank _

end Padded

/-- A declaration that fills a line. -/
structure Layout where
  /-- Blanks in front. -/
  indent : Text
  /-- The declaring keyword. -/
  keyword : Text
  /-- Blanks behind the keyword. -/
  gap : Text
  /-- The bindings, with commas between them. -/
  padded : List Padded
  /-- The semicolon at the end, if there is one. -/
  semicolon : Text
  /-- Blanks behind the declaration. -/
  ending : Text
  indent_blank : ∀ c ∈ indent, isBlank c
  keyword_mem : keyword ∈ keywords
  gap_nonempty : gap ≠ []
  gap_blank : ∀ c ∈ gap, isBlank c
  nonempty : padded ≠ []
  semicolon_mem : semicolon ∈ ([[], ";"] : List Text)
  ending_blank : ∀ c ∈ ending, isBlank c

namespace Layout

/-- The text of all bindings. -/
def body (layout : Layout) : Text := joined "," (layout.padded.map Padded.text)

/-- The line. -/
def text (layout : Layout) : Text :=
  layout.indent ++ (layout.keyword ++ (layout.gap ++ (layout.body ++
    (layout.semicolon ++ layout.ending))))

/-- The bindings without their blanks. -/
def bindings (layout : Layout) : List Binding := layout.padded.map (·.binding)

/-- The line with the given bindings, and a single space in front of each. -/
def declaration (layout : Layout) (bindings : List Text) : Text :=
  layout.indent ++ layout.keyword ++ " " ++ joined ", " bindings ++ layout.semicolon

/-- What becomes of the line when it is to declare the given bindings. -/
def declaring (layout : Layout) (bindings : List Text) : LineChange :=
  if bindings.isEmpty then .delete else .replace (layout.declaration bindings)

/-- What becomes of the line when the bindings of a name are taken away and the others are kept as
they are. -/
def without (layout : Layout) (name : Text) : LineChange :=
  layout.declaring ((layout.bindings.filter (·.name ≠ name)).map Binding.text)

variable {layout : Layout}

theorem declaring_eq_iff {bindings others : List Text} :
    layout.declaring bindings = layout.declaring others ↔
      (bindings = [] ↔ others = []) ∧ joined ", " bindings = joined ", " others := by
  cases bindings <;> cases others <;> simp [declaring, declaration]

theorem isBalanced_body : isBalanced layout.body :=
  isBalanced_joined (List.forall_mem_singleton.mpr comma_plain)
    (List.forall_mem_map.mpr fun padded _ => padded.isBalanced_text)

theorem unended_body : splitTopLevel ';' layout.body = [layout.body] :=
  splitTopLevel_joined_of_whole (List.forall_mem_singleton.mpr (by decide))
    (List.forall_mem_map.mpr fun padded _ => padded.isBalanced_text)
    (List.forall_mem_map.mpr fun padded _ => padded.unended_text)

theorem map_trim_splitTopLevel_body :
    (splitTopLevel ',' (trim layout.body)).map trim = layout.bindings.flatMap Binding.pieces := by
  have nonempty : layout.padded.map Padded.text ≠ [] := by simpa using layout.nonempty
  have cut : splitTopLevel ',' layout.body =
      (layout.padded.map Padded.text).flatMap (splitTopLevel ',') :=
    splitTopLevel_joined comma_plain nonempty
      (List.forall_mem_map.mpr fun padded _ => padded.isBalanced_text)
  calc
    (splitTopLevel ',' (trim layout.body)).map trim = (splitTopLevel ',' layout.body).map trim :=
      map_trim_splitTopLevel_trim (by decide) _
    _ = layout.padded.flatMap fun padded => (splitTopLevel ',' padded.text).map trim := by
      rw [cut, List.flatMap_map, List.map_flatMap]
    _ = layout.bindings.flatMap Binding.pieces := by
      simp only [Padded.map_trim_splitTopLevel_text, bindings, List.flatMap_map]

theorem isBalanced_text : isBalanced layout.text := by
  have keyword_balanced : ∀ keyword ∈ keywords, isBalanced keyword := by decide
  have semicolon_balanced : ∀ semicolon ∈ ([[], ";"] : List Text), isBalanced semicolon := by decide
  exact isBalanced_append (isBalanced_of_isBlank layout.indent_blank) <|
    isBalanced_append (keyword_balanced _ layout.keyword_mem) <|
    isBalanced_append (isBalanced_of_isBlank layout.gap_blank) <|
    isBalanced_append isBalanced_body <|
    isBalanced_append (semicolon_balanced _ layout.semicolon_mem)
      (isBalanced_of_isBlank layout.ending_blank)

/-- No keyword is the start of another one. -/
theorem findSome?_keywords {α : Type} {read : Text → Text → Option α} {keyword rest : Text}
    {result : α} (member : keyword ∈ keywords) (accepted : read keyword rest = some result) :
    (keywords.findSome? fun other => (after? other (keyword ++ rest)).bind (read other)) =
      some result := by
  have own : after? keyword (keyword ++ rest) = some rest := after?_eq_some_iff.mpr rfl
  simp only [keywords, List.mem_cons, List.not_mem_nil, or_false] at member
  rcases member with rfl | rfl | rfl
  · simp only [keywords, List.findSome?_cons, own, Option.bind_some, accepted]
  · simp only [keywords, List.findSome?_cons, own, Option.bind_some, accepted]
    rfl
  · simp only [keywords, List.findSome?_cons, own, Option.bind_some, accepted]
    rfl

theorem exists_keyword_cons (layout : Layout) :
    ∃ c rest, layout.keyword = c :: rest ∧ isBlank c = false := by
  have visible : ∀ keyword ∈ keywords, ∃ c rest, keyword = c :: rest ∧ isBlank c = false := by
    simp only [keywords, List.forall_mem_cons]
    exact ⟨⟨'c', "onst", rfl, rfl⟩, ⟨'l', "et", rfl, rfl⟩, ⟨'v', "ar", rfl, rfl⟩, by simp⟩
  exact visible _ layout.keyword_mem

theorem trimStart_text :
    trimStart layout.text =
      layout.keyword ++ (layout.gap ++ (layout.body ++ (layout.semicolon ++ layout.ending))) := by
  obtain ⟨c, rest, keyword_eq, visible⟩ := layout.exists_keyword_cons
  rw [text, keyword_eq, List.cons_append]
  exact trimStart_append_cons layout.indent_blank visible _

theorem indentation_text : indentation layout.text = layout.indent := by
  obtain ⟨c, rest, keyword_eq, visible⟩ := layout.exists_keyword_cons
  rw [text, keyword_eq, List.cons_append]
  exact indentation_append_cons layout.indent_blank visible _

/-- A semicolon is found only where the layout has one. -/
theorem before?_semicolon :
    before? ";" (trim (layout.body ++ (layout.semicolon ++ layout.ending))) =
        some (trimStart layout.body) ∧ layout.semicolon = ";" ∨
      before? ";" (trim (layout.body ++ (layout.semicolon ++ layout.ending))) = none ∧
        trim (layout.body ++ (layout.semicolon ++ layout.ending)) = trim layout.body ∧
        layout.semicolon = [] := by
  have semicolon_mem := layout.semicolon_mem
  simp only [List.mem_cons, List.not_mem_nil, or_false] at semicolon_mem
  rcases semicolon_mem with absent | present
  · have trimmed :
        trim (layout.body ++ (layout.semicolon ++ layout.ending)) = trim layout.body := by
      rw [absent, List.nil_append, trim_append_blanks layout.ending_blank]
    refine .inr ⟨?_, trimmed, absent⟩
    rw [trimmed, Option.eq_none_iff_forall_ne_some]
    intro front found
    have ends : (trim layout.body).getLast? = some ';' := by
      rw [before?_eq_some_iff.mp found]
      exact List.getLast?_concat
    exact getLast?_ne_separator (by decide) (isBalanced_trim isBalanced_body)
      (splitTopLevel_trim_of_whole (by decide) unended_body) ends
  · refine .inl ⟨before?_eq_some_iff.mpr ?_, present⟩
    have visible : isBlank ';' = false := by decide
    have written : layout.semicolon ++ layout.ending = ';' :: layout.ending := by
      rw [present]
      rfl
    rw [written, trim, trimStart_append_visible visible,
      trimEnd_append_cons_blank visible layout.ending_blank]
    rfl

theorem parse?_text :
    parse? layout.text =
      some ⟨layout.indent, layout.keyword, trim layout.body, layout.semicolon⟩ := by
  unfold parse?
  rw [trimStart_text, indentation_text]
  refine findSome?_keywords layout.keyword_mem ?_
  rw [afterBlanks?_append layout.gap_nonempty layout.gap_blank, Option.bind_eq_bind,
    Option.bind_some]
  rcases layout.before?_semicolon with ⟨found, present⟩ | ⟨absent, trimmed, none_eq⟩
  · rw [trim] at found
    simp only [found]
    rw [present]
    rfl
  · rw [trim] at absent trimmed
    simp only [absent]
    rw [trimmed, none_eq]
    rfl

/-- The line is changed if exactly one piece declares the name. -/
theorem withoutBinding?_text (name : Text) :
    withoutBinding? layout.text name =
      let pieces := layout.bindings.flatMap Binding.pieces
      let kept := pieces.filter fun piece => bindingName piece ≠ name
      if kept.length + 1 = pieces.length then some (layout.declaring kept) else none := by
  have single : (splitTopLevel ';' (trim layout.body)).length ≤ 1 := by
    rw [splitTopLevel_trim_of_whole (by decide) unended_body]
    exact Nat.le_refl 1
  have counted := congrArg List.length layout.map_trim_splitTopLevel_body
  rw [List.length_map] at counted
  simp only [withoutBinding?, isBalanced_text, parse?_text, guard, single,
    map_trim_splitTopLevel_body, counted, Option.bind_eq_bind, Option.bind_some, if_true]
  split
  · rw [declaring, apply_ite some]
    rfl
  · rfl

theorem mem_text_of_mem_binding {binding : Binding} (member : binding ∈ layout.bindings) {c : Char}
    (in_binding : c ∈ binding.text) : c ∈ layout.text := by
  obtain ⟨padded, padded_mem, rfl⟩ := List.mem_map.mp member
  have in_padded : c ∈ padded.text :=
    List.mem_append_right _ (List.mem_append_left _ in_binding)
  have in_body : c ∈ layout.body := mem_joined_of_mem (List.mem_map_of_mem padded_mem) in_padded
  simp only [text, List.mem_append]
  exact .inr (.inr (.inr (.inl in_body)))

theorem newline_not_mem_declaration {bindings : List Binding}
    (subset : ∀ binding ∈ bindings, binding ∈ layout.bindings)
    (newline_not_mem : '\n' ∉ layout.text) :
    '\n' ∉ layout.declaration (bindings.map Binding.text) := by
  intro member
  simp only [declaration, List.mem_append] at member
  rcases member with (((in_indent | in_keyword) | in_space) | in_bindings) | in_semicolon
  · exact newline_not_mem (by simp [text, in_indent])
  · exact newline_not_mem (by simp [text, in_keyword])
  · exact absurd in_space (by decide)
  · rcases mem_of_mem_joined in_bindings with in_gap | ⟨written, written_mem, in_binding⟩
    · exact absurd in_gap (by decide)
    · obtain ⟨binding, binding_mem, rfl⟩ := List.mem_map.mp written_mem
      exact newline_not_mem (mem_text_of_mem_binding (subset binding binding_mem) in_binding)
  · exact newline_not_mem (by simp [text, in_semicolon])

/-- The line ends in its semicolon or in the last character of a binding. -/
theorem visible_of_getLast?_declaration {bindings : List Binding} {c : Char}
    (nonempty : bindings ≠ [])
    (last : (layout.declaration (bindings.map Binding.text)).getLast? = some c) :
    isBlank c = false := by
  obtain ⟨front, final, rfl⟩ := (List.eq_nil_or_concat bindings).resolve_left nonempty
  rw [declaration, List.concat_eq_append, List.map_append, List.map_singleton,
    List.getLast?_append, List.getLast?_append, getLast?_joined final.text_ne_nil,
    List.getLast?_eq_some_getLast final.text_ne_nil] at last
  have semicolon_mem := layout.semicolon_mem
  simp only [List.mem_cons, List.not_mem_nil, or_false] at semicolon_mem
  rcases semicolon_mem with absent | present
  · rw [absent] at last
    exact visible_of_getLast? final.trimmed
      ((List.getLast?_eq_some_getLast final.text_ne_nil).trans last)
  · rw [present] at last
    obtain rfl : ';' = c := Option.some.inj last
    decide

/-- With fewer bindings the line still has no line break in it and no blank at its end. -/
theorem fills_of_without {name changed : Text} (newline_not_mem : '\n' ∉ layout.text)
    (change_eq : layout.without name = .replace changed) : Line.Fills changed := by
  by_cases alone : layout.bindings.filter (·.name ≠ name) = []
  · rw [without, declaring, alone] at change_eq
    contradiction
  · have kept : ¬ ((layout.bindings.filter (·.name ≠ name)).map Binding.text).isEmpty := by
      simpa using alone
    rw [without, declaring, if_neg kept] at change_eq
    obtain rfl := LineChange.replace.inj change_eq
    refine Line.fills_of_unreturned
      (newline_not_mem_declaration (fun _ member => (List.mem_filter.mp member).1) newline_not_mem)
      fun last => ?_
    exact absurd (visible_of_getLast?_declaration alone last) (by decide)

end Layout

end Declaration

end LintRepair
