import LintRepair.Proofs.Declaration.Layout
import LintRepair.Proofs.Document.LineEdits

/-!
# Removed bindings

When a binding is removed from a one-line declaration, the pieces that do not declare its name are
written again with commas between them.  What is removed is the binding and nothing else exactly if
it is one piece, and if the pieces of each other binding are joined as they were.
-/

namespace LintRepair

namespace Declaration

open Text

section Removed

variable {front back : List Binding} {removed : Binding}

/-- The pieces that are no first piece of the removed binding. -/
def leftover (front : List Binding) (removed : Binding) (back : List Binding) : List Text :=
  front.flatMap Binding.pieces ++ (removed.fragments ++ back.flatMap Binding.pieces)

theorem mem_leftover_iff {piece : Text} :
    piece ∈ leftover front removed back ↔
      piece ∈ removed.fragments ∨ ∃ other ∈ front ++ back, piece ∈ other.pieces := by
  simp only [leftover, List.mem_append, List.mem_flatMap]
  grind

theorem piece_of_mem_leftover {piece : Text} (member : piece ∈ leftover front removed back) :
    isBalanced piece ∧ splitTopLevel ',' piece = [piece] := by
  rcases mem_leftover_iff.mp member with fragment | ⟨other, -, piece_mem⟩
  · exact removed.piece_of_mem_pieces (List.mem_of_mem_tail fragment)
  · exact other.piece_of_mem_pieces piece_mem

theorem length_leftover :
    (leftover front removed back).length =
      removed.fragments.length +
        ((front ++ back).flatMap fun other => splitTopLevel ',' other.text).length := by
  have counted (others : List Binding) : (others.flatMap Binding.pieces).length =
      (others.flatMap fun other => splitTopLevel ',' other.text).length := by
    simp only [List.length_flatMap, Binding.pieces, List.length_map]
  rw [leftover, List.flatMap_append, List.length_append, List.length_append, List.length_append,
    counted, counted]
  omega

theorem exists_flatMap_pieces (front : List Binding) (removed : Binding) (back : List Binding) :
    ∃ head, bindingName head = removed.name ∧
      (front ++ removed :: back).flatMap Binding.pieces =
        front.flatMap Binding.pieces ++
          head :: (removed.fragments ++ back.flatMap Binding.pieces) := by
  obtain ⟨head, cut, named⟩ := removed.exists_pieces
  refine ⟨head, named, ?_⟩
  rw [List.flatMap_append, List.flatMap_cons, cut]
  rfl

theorem length_flatMap_pieces :
    ((front ++ removed :: back).flatMap Binding.pieces).length =
      (leftover front removed back).length + 1 := by
  obtain ⟨head, -, cut⟩ := exists_flatMap_pieces front removed back
  simp only [cut, leftover, List.length_append, List.length_cons]
  omega

theorem filter_flatMap_pieces :
    (((front ++ removed :: back).flatMap Binding.pieces).filter fun piece =>
        bindingName piece ≠ removed.name) =
      (leftover front removed back).filter fun piece => bindingName piece ≠ removed.name := by
  obtain ⟨head, named, cut⟩ := exists_flatMap_pieces front removed back
  simp only [cut, leftover, List.filter_append]
  rw [List.filter_cons_of_neg (by simp [named]), List.filter_append]

/-- What declares the name besides the removed binding is a fragment. -/
theorem unnamed_leftover_iff (apart : ∀ other ∈ front ++ back, other.name ≠ removed.name) :
    (∀ piece ∈ leftover front removed back, bindingName piece ≠ removed.name) ↔
      ∀ binding ∈ front ++ removed :: back, ∀ fragment ∈ binding.fragments,
        bindingName fragment ≠ removed.name := by
  have mem_iff {binding : Binding} : binding ∈ front ++ removed :: back ↔
      binding = removed ∨ binding ∈ front ++ back := by
    simp only [List.mem_append, List.mem_cons]
    grind
  constructor
  · intro unnamed binding member fragment fragment_mem
    refine unnamed fragment (mem_leftover_iff.mpr ?_)
    rcases mem_iff.mp member with rfl | other
    · exact .inl fragment_mem
    · exact .inr ⟨binding, other, List.mem_of_mem_tail fragment_mem⟩
  · intro unnamed piece member
    rcases mem_leftover_iff.mp member with fragment | ⟨other, other_mem, piece_mem⟩
    · exact unnamed removed (mem_iff.mpr (.inl rfl)) piece fragment
    · obtain ⟨head, cut, named⟩ := other.exists_pieces
      rw [cut] at piece_mem
      rcases List.mem_cons.mp piece_mem with rfl | fragment
      · rw [named]
        exact apart other other_mem
      · exact unnamed other (mem_iff.mpr (.inr other_mem)) piece fragment

theorem leftover_eq_nil_iff :
    leftover front removed back = [] ↔ removed.IsWhole ∧ front ++ back = [] := by
  have no_pieces (others : List Binding) : others.flatMap Binding.pieces = [] ↔ others = [] := by
    cases others with
    | nil => simp
    | cons other others => simp [other.pieces_ne_nil]
  rw [leftover, Binding.IsWhole]
  simp only [List.append_eq_nil_iff, no_pieces]
  grind

theorem joined_leftover_iff (several : front ++ back ≠ []) :
    joined ", " (leftover front removed back) = joined ", " ((front ++ back).map Binding.text) ↔
      removed.IsWhole ∧ ∀ other ∈ front ++ back, other.IsEven := by
  have texts_nonempty : (front ++ back).map Binding.text ≠ [] := mt List.map_eq_nil_iff.mp several
  have texts_balanced : ∀ text ∈ (front ++ back).map Binding.text, isBalanced text :=
    List.forall_mem_map.mpr fun other _ => other.balanced
  have of_whole (whole : removed.IsWhole) :
      joined ", " (leftover front removed back) =
        joined ", " ((front ++ back).map fun other => joined ", " other.pieces) := by
    have regrouped : leftover front removed back = (front ++ back).flatMap Binding.pieces := by
      rw [leftover, whole, List.nil_append, List.flatMap_append]
    rw [regrouped]
    exact joined_flatMap fun other _ => other.pieces_ne_nil
  constructor
  · intro joined_eq
    have leftover_nonempty : leftover front removed back ≠ [] :=
      fun empty => several (leftover_eq_nil_iff.mp empty).2
    -- The commas outside brackets and strings are counted on both sides.
    have whole : removed.IsWhole := by
      have counted := congrArg (fun text => (splitTopLevel ',' text).length) joined_eq
      have left_counted := length_splitTopLevel_joined_of_whole comma_plain gap_plain
        leftover_nonempty (fun _ member => (piece_of_mem_leftover member).1)
        (fun _ member => (piece_of_mem_leftover member).2)
      have right_counted := length_splitTopLevel_joined comma_plain gap_plain texts_nonempty
        texts_balanced
      have lengths := left_counted.symm.trans (counted.trans right_counted)
      rw [length_leftover, List.flatMap_map] at lengths
      refine List.length_eq_zero_iff.mp ?_
      omega
    refine ⟨whole, ?_⟩
    rw [of_whole whole] at joined_eq
    refine eq_of_joined_map_eq comma_plain ?_ (fun other _ => other.balanced) ?_ joined_eq
    · intro other _
      exact other.isBalanced_joined_pieces
    · intro other _
      exact other.length_splitTopLevel_joined_pieces
  · rintro ⟨whole, even⟩
    rw [of_whole whole]
    exact congrArg (joined ", ") (List.map_congr_left even)

theorem declaring_leftover_iff (layout : Layout) :
    layout.declaring (leftover front removed back) =
        layout.declaring ((front ++ back).map Binding.text) ↔
      removed.IsWhole ∧ ∀ other ∈ front ++ back, other.IsEven := by
  rw [Layout.declaring_eq_iff, leftover_eq_nil_iff, List.map_eq_nil_iff]
  by_cases alone : front ++ back = []
  · constructor
    · rintro ⟨same_emptiness, -⟩
      exact ⟨(same_emptiness.mpr alone).1, by simp [alone]⟩
    · rintro ⟨whole, -⟩
      rw [leftover_eq_nil_iff.mpr ⟨whole, alone⟩, alone]
      exact ⟨iff_of_true ⟨whole, rfl⟩ rfl, rfl⟩
  · rw [joined_leftover_iff alone]
    exact and_iff_right (iff_of_false (fun both => alone both.2) alone)

end Removed

end Declaration

namespace Repair

open Text Declaration

/-- The title of the fix that removes a binding. -/
def removalTitle (name : Text) : Text := "Remove unused variable '" ++ name ++ "'"

section Removal

variable {site : Site} {layout : Layout} {removed : Binding}

theorem title_ne_of_underscore {name : Text} {fix : Fix}
    (offered : underscore site.diagnostic site.document none = some fix) :
    fix.title ≠ removalTitle name := by
  simp only [underscore, Option.bind_eq_bind, Option.bind_eq_some_iff, Option.pure_def,
    Option.some.injEq] at offered
  obtain ⟨covered, -, -, -, rfl⟩ := offered
  exact fun same => absurd (List.cons.inj same).1 (by decide)

theorem unusedRemoval_iff {name : Text} (covered : site.text? = some name) {fix : Fix} :
    fix ∈ unusedVariable site ∧ fix.title = removalTitle name ↔
      isIdentifier name ∧ ∃ line change, site.document.line? site.line = some line ∧
        withoutBinding? line name = some change ∧
        (site.fix (removalTitle name) (site.document.changeLine site.line change)).onRequest =
          fix := by
  unfold unusedVariable
  rw [covered]
  by_cases named : isIdentifier name
  · rw [Option.filter_some_pos named]
    simp only [List.mem_append, Option.mem_toList, Option.bind_eq_bind, Option.bind_eq_some_iff,
      Option.pure_def, Option.some.injEq]
    constructor
    · rintro ⟨prefixed | ⟨line, line_eq, change, change_eq, rfl⟩, titled⟩
      · exact absurd titled (title_ne_of_underscore prefixed)
      · exact ⟨named, line, change, line_eq, change_eq, rfl⟩
    · rintro ⟨-, line, change, line_eq, change_eq, rfl⟩
      exact ⟨.inr ⟨line, line_eq, change, change_eq, rfl⟩, rfl⟩
  · rw [Option.filter_some_neg (Bool.eq_false_iff.mpr named)]
    simp [named]

/-- Where the binding of a name stands among the others. -/
theorem exists_around (distinct : (layout.bindings.map Binding.name).Nodup)
    (declared : removed ∈ layout.bindings) :
    ∃ front back, layout.bindings = front ++ removed :: back ∧
      layout.bindings.filter (·.name ≠ removed.name) = front ++ back ∧
      ∀ other ∈ front ++ back, other.name ≠ removed.name := by
  obtain ⟨front, back, parts⟩ := List.append_of_mem declared
  rw [parts, List.map_append, List.map_cons, List.perm_middle.nodup_iff, List.nodup_cons,
    ← List.map_append] at distinct
  have apart : ∀ other ∈ front ++ back, other.name ≠ removed.name := by
    intro other member same
    exact distinct.1 (same ▸ List.mem_map_of_mem member)
  refine ⟨front, back, parts, ?_, apart⟩
  have kept : (front ++ back).filter (·.name ≠ removed.name) = front ++ back :=
    List.filter_eq_self.mpr fun other member => decide_eq_true (apart other member)
  rw [parts, List.filter_append, List.filter_cons_of_neg (by simp), ← List.filter_append, kept]

theorem withoutBinding?_iff (distinct : (layout.bindings.map Binding.name).Nodup)
    (declared : removed ∈ layout.bindings) :
    ((withoutBinding? layout.text removed.name).isSome ↔
      ∀ binding ∈ layout.bindings, ∀ fragment ∈ binding.fragments,
        bindingName fragment ≠ removed.name) ∧
    ∀ change ∈ withoutBinding? layout.text removed.name,
      (change = layout.without removed.name ↔
        removed.IsWhole ∧ ∀ other ∈ layout.bindings, other.name ≠ removed.name → other.IsEven) := by
  obtain ⟨front, back, parts, others, apart⟩ := exists_around distinct declared
  have others_iff {condition : Binding → Prop} :
      (∀ other ∈ layout.bindings, other.name ≠ removed.name → condition other) ↔
        ∀ other ∈ front ++ back, condition other := by
    rw [← others]
    simp [and_imp]
  have sole_iff : ((leftover front removed back).filter fun piece =>
        bindingName piece ≠ removed.name).length + 1 =
      (leftover front removed back).length + 1 ↔
      ∀ binding ∈ layout.bindings, ∀ fragment ∈ binding.fragments,
        bindingName fragment ≠ removed.name := by
    rw [parts, ← unnamed_leftover_iff apart, Nat.add_right_cancel_iff,
      List.length_filter_eq_length_iff]
    simp
  rw [Layout.withoutBinding?_text, Layout.without, others, others_iff,
    ← declaring_leftover_iff layout]
  simp only [parts, filter_flatMap_pieces, length_flatMap_pieces]
  rw [parts] at sole_iff
  split
  · rename_i sole
    have unnamed := sole_iff.mp sole
    refine ⟨iff_of_true rfl unnamed, fun change member => ?_⟩
    have kept : (leftover front removed back).filter
        (fun piece => bindingName piece ≠ removed.name) = leftover front removed back :=
      List.filter_eq_self.mpr fun piece piece_mem =>
        decide_eq_true ((unnamed_leftover_iff apart).mpr unnamed piece piece_mem)
    obtain rfl := Option.some.inj (Option.mem_def.mp member)
    rw [kept]
  · rename_i several
    exact ⟨iff_of_false (by simp) (mt sole_iff.mpr several), by simp⟩

end Removal

/-- In a document with a declaration on a line of its own, the removal of a binding is offered
exactly if no fragment of a binding passes for another binding of the name.  It takes away that
binding, or the line if there is no other one, and leaves the other bindings as they are, exactly if
no comma of the binding stands outside brackets and strings, and the others have single spaces
behind such commas. -/
theorem unused_binding_removed_whole_iff {site : Site} {layout : Layout} {removed : Binding}
    (on_line : site.document.line? site.line = some layout.text)
    (distinct : (layout.bindings.map Binding.name).Nodup) (declared : removed ∈ layout.bindings)
    (covered : site.text? = some removed.name) :
    ((∃ fix ∈ unusedVariable site, fix.title = removalTitle removed.name) ↔
      isIdentifier removed.name ∧ ∀ binding ∈ layout.bindings, ∀ fragment ∈ binding.fragments,
        bindingName fragment ≠ removed.name) ∧
    (∀ fix ∈ unusedVariable site, fix.title = removalTitle removed.name →
      ∃ change, fix.edits = [site.document.changeLine site.line change] ∧
        (change = layout.without removed.name ↔
          removed.IsWhole ∧
            ∀ other ∈ layout.bindings, other.name ≠ removed.name → other.IsEven)) ∧
    ((∀ text ∈ site.document.texts, text.getLast? ≠ some '\r') →
      ∃ result,
        site.document.applyEdits?
            [site.document.changeLine site.line (layout.without removed.name)] = some result ∧
          (Document.ofText result).texts =
            site.document.changedTexts site.line (layout.without removed.name)) := by
  obtain ⟨offered_iff, exact_iff⟩ := withoutBinding?_iff distinct declared
  refine ⟨?_, ?_, ?_⟩
  · rw [← offered_iff, Option.isSome_iff_exists]
    constructor
    · rintro ⟨fix, offered, titled⟩
      obtain ⟨named, line, change, line_eq, change_eq, -⟩ :=
        (unusedRemoval_iff covered).mp ⟨offered, titled⟩
      obtain rfl := Option.some.inj (on_line.symm.trans line_eq)
      exact ⟨named, change, change_eq⟩
    · rintro ⟨named, change, change_eq⟩
      exact ⟨_, (unusedRemoval_iff covered).mpr ⟨named, _, change, on_line, change_eq, rfl⟩⟩
  · intro fix offered titled
    obtain ⟨-, line, change, line_eq, change_eq, rfl⟩ :=
      (unusedRemoval_iff covered).mp ⟨offered, titled⟩
    obtain rfl := Option.some.inj (on_line.symm.trans line_eq)
    exact ⟨change, rfl, exact_iff change change_eq⟩
  · intro unreturned
    obtain ⟨line, found, line_eq⟩ := Option.map_eq_some_iff.mp on_line
    have proper := site.document.isProper_of_mem_lines line (List.mem_of_getElem? found)
    refine Document.exists_changed unreturned (List.getElem?_eq_some_iff.mp found).1 ?_
    intro changed change_eq
    exact Layout.fills_of_without (line_eq ▸ proper.newline_not_mem) change_eq

/-- A report of the variable at a column of a text of one line. -/
def variableSite (text : Text) (column : Nat) : Site where
  diagnostic := ⟨"no-unused-vars", "message", .onLine 0 column (column + 1), .error, none, none,
    Diagnostic.lintSource⟩
  document := .ofText text
  settings := .standard

/-- The binding `a = f(1, 2)`. -/
def callBinding : Binding where
  name := "a"
  tail := " = f(1, 2)"
  nonempty := List.cons_ne_nil _ _
  word := List.all_eq_true.mp rfl
  marked := .inr ⟨" ", '=', " f(1, 2)", rfl, blank_of_isAllBlank rfl, .inr rfl⟩
  balanced := rfl
  unended := rfl
  trimmed := rfl

/-- The binding `m: Map<string, number> = {}`. -/
def mapBinding : Binding where
  name := "m"
  tail := ": Map<string, number> = \x7b\x7d"
  nonempty := List.cons_ne_nil _ _
  word := List.all_eq_true.mp rfl
  marked :=
    .inr ⟨"", ':', " Map<string, number> = \x7b\x7d", rfl, blank_of_isAllBlank rfl, .inl rfl⟩
  balanced := rfl
  unended := rfl
  trimmed := rfl

theorem blank_space : ∀ c ∈ (" " : Text), isBlank c := blank_of_isAllBlank rfl

/-- A binding between blanks. -/
def paddedBy (lead trail : Text) (binding : Binding) (lead_blank : isAllBlank lead)
    (trail_blank : isAllBlank trail) : Padded :=
  ⟨lead, binding, trail, blank_of_isAllBlank lead_blank, blank_of_isAllBlank trail_blank⟩

/-- The line `let a = f(1, 2), m: Map<string, number> = {}` with blanks in front of `m` and around
the declaration. -/
def mixedLayout : Layout where
  indent := " "
  keyword := "let"
  gap := " "
  padded := [paddedBy [] [] callBinding rfl rfl, paddedBy " " [] mapBinding rfl rfl]
  semicolon := []
  ending := " "
  indent_blank := blank_space
  keyword_mem := List.mem_cons_of_mem _ List.mem_cons_self
  gap_nonempty := List.cons_ne_nil _ _
  gap_blank := blank_space
  nonempty := List.cons_ne_nil _ _
  semicolon_mem := List.mem_cons_self
  ending_blank := blank_space

theorem call_removed_beside_map :
    (variableSite mixedLayout.text 5).document.line? 0 = some mixedLayout.text ∧
    (mixedLayout.bindings.map Binding.name).Nodup ∧ callBinding ∈ mixedLayout.bindings ∧
    (variableSite mixedLayout.text 5).text? = some callBinding.name ∧
    (∃ fix ∈ unusedVariable (variableSite mixedLayout.text 5),
      fix.title = removalTitle "a" ∧
      fix.edits = [(variableSite mixedLayout.text 5).document.changeLine 0
        (.replace " let m: Map<string, number> = \x7b\x7d")]) ∧
    ∃ result, (variableSite mixedLayout.text 5).document.applyEdits?
        [(variableSite mixedLayout.text 5).document.changeLine 0
          (.replace " let m: Map<string, number> = \x7b\x7d")] = some result ∧
      (Document.ofText result).texts =
        ([" let m: Map<string, number> = \x7b\x7d"] : List Text) := by
  have on_line : (variableSite mixedLayout.text 5).document.line? 0 = some mixedLayout.text := by
    decide +kernel
  have distinct : (mixedLayout.bindings.map Binding.name).Nodup := by decide
  have declared : callBinding ∈ mixedLayout.bindings := List.mem_cons_self
  have covered : (variableSite mixedLayout.text 5).text? = some callBinding.name := by
    decide +kernel
  have whole : callBinding.IsWhole := by decide
  have even : ∀ other ∈ mixedLayout.bindings, other.name ≠ callBinding.name → other.IsEven := by
    decide
  obtain ⟨offers, exact_iff, applies⟩ :=
    unused_binding_removed_whole_iff on_line distinct declared covered
  have unnamed : ∀ binding ∈ mixedLayout.bindings, ∀ fragment ∈ binding.fragments,
      bindingName fragment ≠ callBinding.name := by decide
  obtain ⟨fix, offered, titled⟩ := offers.mpr ⟨by decide, unnamed⟩
  obtain ⟨change, edits_eq, change_iff⟩ := exact_iff fix offered titled
  obtain rfl := change_iff.mpr ⟨whole, even⟩
  obtain ⟨result, applied, texts_eq⟩ := applies (by decide +kernel)
  have written : mixedLayout.without callBinding.name =
      .replace " let m: Map<string, number> = \x7b\x7d" := by decide
  rw [written] at edits_eq applied texts_eq
  exact ⟨on_line, distinct, declared, covered, ⟨fix, offered, titled, edits_eq⟩, result, applied,
    texts_eq.trans (by decide +kernel)⟩

/-- The line `const m: Map<string, number> = {};`. -/
def mapLayout : Layout where
  indent := []
  keyword := "const"
  gap := " "
  padded := [paddedBy [] [] mapBinding rfl rfl]
  semicolon := ";"
  ending := []
  indent_blank := blank_of_isAllBlank rfl
  keyword_mem := List.mem_cons_self
  gap_nonempty := List.cons_ne_nil _ _
  gap_blank := blank_space
  nonempty := List.cons_ne_nil _ _
  semicolon_mem := List.mem_cons_of_mem _ List.mem_cons_self
  ending_blank := blank_of_isAllBlank rfl

/-- The only binding of a line goes up to the comma in its type, and what is behind it is left. -/
theorem half_binding_left_behind :
    (variableSite mapLayout.text 6).document.line? 0 = some mapLayout.text ∧
    mapLayout.bindings = [mapBinding] ∧ mapLayout.without mapBinding.name = .delete ∧
    ∃ fix ∈ unusedVariable (variableSite mapLayout.text 6),
      fix.title = removalTitle mapBinding.name ∧
      fix.applied? (variableSite mapLayout.text 6).document =
        some ("const number> = \x7b\x7d;" : Text) := by
  refine ⟨by decide +kernel, rfl, by decide, ?_⟩
  refine ⟨((variableSite mapLayout.text 6).fix (removalTitle mapBinding.name)
    (.replace (.onLine 0 0 34) "const number> = \x7b\x7d;")).onRequest, ?_, rfl, ?_⟩
  · decide +kernel
  · decide +kernel

end Repair

end LintRepair
