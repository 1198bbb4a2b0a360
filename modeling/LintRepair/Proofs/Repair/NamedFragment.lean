import LintRepair.Proofs.Repair.BooleanCast
import LintRepair.Proofs.Repair.Fragment

/-!
# Named fragments

The children of a named fragment start behind its opening tag, which the repair takes to end at the
first `>`.  A `>` in an expression or a string among the attributes cuts them, and what is behind it
is taken for children.
-/

namespace LintRepair

namespace Markup

open Text

/-- The names that fragments go by. -/
def fragmentNames : List Text := ["React.Fragment", "Fragment"]

/-- The fragment with a name, attributes and children. -/
def namedFragment (name attributes children : Text) : Text :=
  '<' :: (name ++ (attributes ++ '>' :: (children ++ ("</" ++ (name ++ ">")))))

/-- The attributes are cut at their first `>` and what is behind it passes for children: the tag
does not seem to close itself there, and no fragment of that name seems to open behind. -/
def CutsAttributes (name attributes : Text) : Prop :=
  ∃ front back, attributes = front ++ '>' :: back ∧ '>' ∉ front ∧
    ¬ ['/'] <:+ front ∧ ¬ '<' :: name <:+: back

section Children

variable {name attributes children front back closing opening : Text}

/-- The children start behind the first `>`, unless the tag closes itself there or they hold a
fragment of the same name. -/
theorem namedChildren?_eq (absent : '>' ∉ front) :
    namedChildren? opening closing (front ++ '>' :: (back ++ closing)) =
      if ¬ ['/'] <:+ front ∧ ¬ opening <:+: back then some back else none := by
  have closed : before? closing (front ++ '>' :: (back ++ closing)) = some (front ++ '>' :: back) :=
    before?_eq_some_iff.mpr (by simp)
  have split : splitFirst? ">" (front ++ '>' :: back) = some (front, back) :=
    splitFirst?_char_append absent back
  have slashed : endsWith front "/" ↔ ['/'] <:+ front := endsWith_iff
  have holds : containsPiece back opening ↔ opening <:+: back := containsPiece_iff
  rw [namedChildren?, closed]
  simp only [Option.bind_eq_bind, Option.bind_some, split, ← slashed, ← holds]
  cases endsWith front "/" <;> cases containsPiece back opening <;> simp

/-- A text that starts with the name of a fragment and a blank or `>` is read as that fragment. -/
theorem fragmentChildren?_named (named : name ∈ fragmentNames) {rest : Text}
    (ends : rest.head?.any fun c => c = '>' || isBlank c) :
    fragmentChildren? ('<' :: (name ++ rest)) =
      namedChildren? ('<' :: name) ("</" ++ (name ++ ">")) rest := by
  simp only [fragmentNames, List.mem_cons, List.not_mem_nil, or_false] at named
  rcases named with rfl | rfl
  · simp [fragmentChildren?, after?, namedFragments, ends]
  · simp [fragmentChildren?, after?, namedFragments, ends]

theorem head?_attributes (separated : EndsWord attributes) (behind : Text) :
    (attributes ++ '>' :: behind).head?.any fun c => c = '>' || isBlank c := by
  cases attributes with
  | nil => rfl
  | cons c attributes => simp [endsWord_cons.mp separated]

theorem gt_not_mem_opening (named : name ∈ fragmentNames) : '>' ∉ '<' :: name := by
  simp only [fragmentNames, List.mem_cons, List.not_mem_nil, or_false] at named
  rcases named with rfl | rfl <;> decide

/-- The opening tag is taken to end at the first `>`, whatever stands behind it. -/
theorem fragmentChildren?_namedFragment (named : name ∈ fragmentNames)
    (separated : EndsWord attributes) (absent : '>' ∉ front)
    (parts : attributes ++ '>' :: children = front ++ '>' :: back) :
    fragmentChildren? (namedFragment name attributes children) =
      if ¬ ['/'] <:+ front ∧ ¬ '<' :: name <:+: back then some back else none := by
  let closing : Text := "</" ++ (name ++ ">")
  have text_eq : namedFragment name attributes children =
      '<' :: (name ++ ((attributes ++ '>' :: children) ++ closing)) := by
    simp [namedFragment, closing]
  have ends := head?_attributes separated (children ++ closing)
  rw [← List.cons_append, ← List.append_assoc] at ends
  rw [text_eq, fragmentChildren?_named named ends, parts, List.append_assoc, List.cons_append]
  exact namedChildren?_eq absent

theorem cutsAttributes_iff (absent : '>' ∉ front) :
    CutsAttributes name (front ++ '>' :: back) ↔ ¬ ['/'] <:+ front ∧ ¬ '<' :: name <:+: back := by
  constructor
  · rintro ⟨first, rest, parts, first_absent, cut⟩
    have split := splitFirst?_char_append absent back
    rw [parts, splitFirst?_char_append first_absent] at split
    obtain ⟨rfl, rfl⟩ := Prod.mk.inj (Option.some.inj split)
    exact cut
  · exact fun cut => ⟨front, back, rfl, absent, cut⟩

/-- Behind a cut the rest of the attributes comes in front of the children. -/
theorem fragmentChildren?_of_parts (named : name ∈ fragmentNames)
    (separated : EndsWord (front ++ '>' :: back)) (apart : ¬ '<' :: name <:+: children)
    (absent : '>' ∉ front) :
    fragmentChildren? (namedFragment name (front ++ '>' :: back) children) =
      if ¬ ['/'] <:+ front ∧ ¬ '<' :: name <:+: back then some (back ++ '>' :: children)
      else none := by
  have parts : (front ++ '>' :: back) ++ '>' :: children =
      front ++ '>' :: (back ++ '>' :: children) := List.append_assoc _ _ _
  have held : '<' :: name <:+: back ++ '>' :: children ↔ '<' :: name <:+: back := by
    rw [infix_append_cons_iff (gt_not_mem_opening named), or_iff_left apart]
  rw [fragmentChildren?_namedFragment named separated absent parts]
  simp only [held]

theorem rest_ne_children (back children : Text) : back ++ '>' :: children ≠ children := by
  intro same
  have lengths := congrArg List.length same
  rw [List.length_append, List.length_cons] at lengths
  omega

variable (named : name ∈ fragmentNames) (separated : EndsWord attributes)
  (unslashed : ¬ ['/'] <:+ attributes) (apart : ¬ '<' :: name <:+: children)

include named separated unslashed apart

theorem fragmentChildren?_of_absent (absent : '>' ∉ attributes) :
    fragmentChildren? (namedFragment name attributes children) = some children := by
  rw [fragmentChildren?_namedFragment named separated absent rfl, if_pos ⟨unslashed, apart⟩]

/-- What is found ends in the children, and is more than them exactly if the attributes are cut. -/
theorem fragmentChildren?_eq_some {found : Text}
    (offered : fragmentChildren? (namedFragment name attributes children) = some found) :
    '>' ∉ attributes ∧ found = children ∨
      CutsAttributes name attributes ∧ ∃ back, found = back ++ '>' :: children := by
  by_cases member : '>' ∈ attributes
  · obtain ⟨front, back, rfl, absent⟩ := List.eq_append_cons_of_mem member
    rw [fragmentChildren?_of_parts named separated apart absent] at offered
    split at offered
    · rename_i cut
      exact .inr ⟨(cutsAttributes_iff absent).mpr cut, back, (Option.some.inj offered).symm⟩
    · contradiction
  · rw [fragmentChildren?_of_absent named separated unslashed apart member] at offered
    exact .inl ⟨member, (Option.some.inj offered).symm⟩

theorem fragmentChildren?_eq_children_iff :
    fragmentChildren? (namedFragment name attributes children) = some children ↔
      '>' ∉ attributes := by
  refine ⟨fun found => ?_, fragmentChildren?_of_absent named separated unslashed apart⟩
  rcases fragmentChildren?_eq_some named separated unslashed apart found with
    ⟨absent, -⟩ | ⟨-, back, same⟩
  · exact absent
  · exact absurd same.symm (rest_ne_children back children)

/-- Nothing but the children is found exactly unless the attributes are cut. -/
theorem only_children_iff :
    (∀ found, fragmentChildren? (namedFragment name attributes children) = some found →
      found = children) ↔ ¬ CutsAttributes name attributes := by
  constructor
  · rintro only ⟨front, back, rfl, absent, cut⟩
    have found := fragmentChildren?_of_parts named separated apart absent
    rw [if_pos cut] at found
    exact rest_ne_children back children (only _ found)
  · intro whole found offered
    rcases fragmentChildren?_eq_some named separated unslashed apart offered with
      ⟨-, same⟩ | ⟨cuts, -⟩
    · exact same
    · exact absurd cuts whole

end Children

end Markup

namespace Repair

open Text Markup

theorem uselessFragment_eq {site : Site} {text : Text}
    (covered : site.text?.map trim = some text) :
    uselessFragment site = (fragmentChildren? text).map fun found =>
      site.replaceRange "Remove this Fragment" (if isAllBlank found then [] else found) := by
  obtain ⟨range_text, text_eq, rfl⟩ := Option.map_eq_some_iff.mp covered
  simp only [uselessFragment, text_eq, Option.bind_eq_bind, Option.bind_some]
  cases fragmentChildren? (trim range_text) <;> rfl

/-- A `>` among the attributes shows in what takes the place of the fragment. -/
theorem not_isAllBlank_rest (back children : Text) : ¬ isAllBlank (back ++ '>' :: children) := by
  simp [isAllBlank, isBlank]

/-- The children that are found are those of the fragment exactly unless the attributes are cut, and
they are found exactly if no `>` stands among the attributes.  Behind a cut the rest of the
attributes comes first.  The repair puts the children in the place of the fragment, or nothing when
they are blank, exactly if no `>` stands among the attributes. -/
theorem named_fragment_unwrapped_iff {name attributes children : Text}
    (named : name ∈ fragmentNames) (separated : EndsWord attributes)
    (unslashed : ¬ ['/'] <:+ attributes) (apart : ¬ '<' :: name <:+: children) :
    let text := namedFragment name attributes children
    ((∀ found, fragmentChildren? text = some found → found = children) ↔
      ¬ CutsAttributes name attributes) ∧
    (fragmentChildren? text = some children ↔ '>' ∉ attributes) ∧
    (∀ front back, attributes = front ++ '>' :: back → '>' ∉ front →
      fragmentChildren? text = if ¬ ['/'] <:+ front ∧ ¬ '<' :: name <:+: back then
        some (back ++ '>' :: children) else none) ∧
    ∀ site : Site, site.text?.map trim = some text →
      (uselessFragment site = some (site.replaceRange "Remove this Fragment"
        (if isAllBlank children then [] else children)) ↔ '>' ∉ attributes) := by
  intro text
  have found_iff := fragmentChildren?_eq_children_iff named separated unslashed apart
  refine ⟨only_children_iff named separated unslashed apart, found_iff, ?_, ?_⟩
  · rintro front back rfl absent
    exact fragmentChildren?_of_parts named separated apart absent
  · intro site covered
    rw [uselessFragment_eq covered, Option.map_eq_some_iff]
    refine ⟨?_, fun absent => ⟨children, found_iff.mpr absent, rfl⟩⟩
    rintro ⟨found, offered, same⟩
    rcases fragmentChildren?_eq_some named separated unslashed apart offered with
      ⟨absent, -⟩ | ⟨-, back, rfl⟩
    · exact absent
    · -- What is put in the place is longer than the children, and not blank.
      rw [if_neg (not_isAllBlank_rest back children)] at same
      have texts := Site.replaceRange_inj.mp same
      split at texts
      · simp at texts
      · exact absurd texts (rest_ne_children back children)

/-- The fragment around another fragment, with a string among its attributes. -/
def keyedFragment : Text :=
  namedFragment "React.Fragment" " key=\"a\"" "a > b <Fragment>c</Fragment>"

/-- A report about that fragment. -/
def keyedSite : Site := fragmentSite ("return " ++ (keyedFragment ++ ";")) 7 76

theorem named_fragment_unwrapped_around_other :
    ("React.Fragment" : Text) ∈ fragmentNames ∧ EndsWord " key=\"a\"" ∧
    ¬ ['/'] <:+ (" key=\"a\"" : Text) ∧
    ¬ ("<React.Fragment" : Text) <:+: "a > b <Fragment>c</Fragment>" ∧
    '>' ∉ (" key=\"a\"" : Text) ∧ keyedSite.text?.map trim = some keyedFragment ∧
    fragmentChildren? keyedFragment = some "a > b <Fragment>c</Fragment>" ∧
    uselessFragment keyedSite =
      some (keyedSite.replaceRange "Remove this Fragment" "a > b <Fragment>c</Fragment>") := by
  have named : ("React.Fragment" : Text) ∈ fragmentNames := List.mem_cons_self
  have separated : EndsWord " key=\"a\"" := endsWord_cons.mpr rfl
  have unslashed : ¬ ['/'] <:+ (" key=\"a\"" : Text) := by decide
  have apart : ¬ ("<React.Fragment" : Text) <:+: "a > b <Fragment>c</Fragment>" := by decide
  have absent : '>' ∉ (" key=\"a\"" : Text) := by decide
  have covered : keyedSite.text?.map trim = some keyedFragment := by decide +kernel
  obtain ⟨-, found_iff, -, offered_iff⟩ :=
    named_fragment_unwrapped_iff named separated unslashed apart
  exact ⟨named, separated, unslashed, apart, absent, covered, found_iff.mpr absent,
    (offered_iff keyedSite covered).mpr absent⟩

/-- An arrow function among the attributes: the tag is taken to end at the arrow, and the rest of
the attribute is taken for children. -/
theorem arrow_taken_for_tag_end :
    let attributes : Text := " key=\x7bitems.find(x => x.id)\x7d"
    ("Fragment" : Text) ∈ fragmentNames ∧ EndsWord attributes ∧ isBalanced attributes ∧
    ¬ Expression.StandsIn [">"] attributes ∧ ¬ ['/'] <:+ attributes ∧
    ¬ ("<Fragment" : Text) <:+: "text" ∧
    fragmentChildren? (namedFragment "Fragment" attributes "text") = some " x.id)\x7d>text" := by
  exact ⟨by decide, endsWord_cons.mpr rfl, by decide +kernel, by decide +kernel, by decide,
    by decide, by decide +kernel⟩

end Repair

end LintRepair
