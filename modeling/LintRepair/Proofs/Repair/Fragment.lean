import Mathlib.Algebra.Ring.Int.Defs
import Mathlib.Data.List.Infix
import LintRepair.Proofs.Provider
import LintRepair.Repair.Markup

/-!
# Short fragments

The tags of short fragments are read wherever they stand in a text, an opening one counting up and a
closing one counting down.  A text between two such tags is one fragment if the first tag stays open
up to the last one, which closes it; fragments side by side and closing tags that close too much are
told by the count.  The repair puts the children in the place of a text exactly if it is one
fragment.
-/

namespace LintRepair

namespace Markup

open Text

/-- What a tag at the start of a text counts: `<>` one up and `</>` one down. -/
def tagAt? (s : Text) : Option Int :=
  if startsWith s "<>" then some 1 else if startsWith s "</>" then some (-1) else none

/-- The tags of short fragments at all places of a text, from left to right. -/
def shortTags (s : Text) : List Int := s.tails.filterMap tagAt?

/-- The first tag is open behind every tag before the last one, which closes it. -/
structure LastClosesFirst (tags : List Int) : Prop where
  open_between : ∀ front, front <+: tags → front ≠ [] → front ≠ tags → 1 ≤ front.sum
  closed : tags.sum = 0

instance (tags : List Int) : Decidable (LastClosesFirst tags) :=
  decidable_of_iff ((∀ front ∈ tags.inits, front ≠ [] → front ≠ tags → 1 ≤ front.sum) ∧
      tags.sum = 0) (by
    simp only [List.mem_inits]
    exact ⟨fun ⟨between, closed⟩ => ⟨between, closed⟩, fun ⟨between, closed⟩ => ⟨between, closed⟩⟩)

/-- The text between the tags of a short fragment with these children. -/
def shortFragment (children : Text) : Text := "<>" ++ (children ++ "</>")

/-- No tag closes more than `depth` fragments and those opened before it. -/
def NeverOvercloses (depth : Int) (tags : List Int) : Prop :=
  ∀ front, front <+: tags → 0 ≤ depth + front.sum

section Tags

variable {c : Char} {s t : Text}

@[simp]
theorem shortTags_nil : shortTags [] = [] := rfl

theorem shortTags_cons : shortTags (c :: s) = (tagAt? (c :: s)).toList ++ shortTags s := by
  rw [shortTags, List.tails_cons, List.filterMap_cons]
  cases tagAt? (c :: s) <;> rfl

theorem tagAt?_of_ne (differs : c ≠ '<') : tagAt? (c :: s) = none := by
  simp [tagAt?, startsWith, after?, Ne.symm differs]

theorem shortTags_opening : shortTags ('<' :: '>' :: s) = 1 :: shortTags s := by
  have here : tagAt? ('<' :: '>' :: s) = some 1 := rfl
  rw [shortTags_cons, here, shortTags_cons, tagAt?_of_ne (by decide)]
  rfl

theorem shortTags_closing : shortTags ('<' :: '/' :: '>' :: s) = -1 :: shortTags s := by
  have here : tagAt? ('<' :: '/' :: '>' :: s) = some (-1) := rfl
  rw [shortTags_cons, here, shortTags_cons, shortTags_cons, tagAt?_of_ne (by decide),
    tagAt?_of_ne (by decide)]
  rfl

/-- A piece with `<` at most at its start does not reach over the next `<`. -/
theorem startsWith_append {lead : Text} (absent : '<' ∉ lead.tail) :
    startsWith (c :: s ++ '<' :: t) lead = startsWith (c :: s) lead := by
  rw [Bool.eq_iff_iff, startsWith_iff, startsWith_iff]
  refine ⟨fun leads => ?_, fun leads => leads.trans (List.prefix_append _ _)⟩
  rcases List.prefix_or_prefix_of_prefix leads (List.prefix_append (c :: s) ('<' :: t)) with
    short | ⟨more, rfl⟩
  · exact short
  · cases more with
    | nil => simp
    | cons d more =>
        have next := (List.prefix_append_right_inj (c :: s)).mp leads
        obtain rfl := (List.cons_prefix_cons.mp next).1
        simp at absent

theorem tagAt?_append : tagAt? (c :: s ++ '<' :: t) = tagAt? (c :: s) := by
  rw [tagAt?, startsWith_append (by decide), startsWith_append (by decide), tagAt?]

theorem shortTags_append : shortTags (s ++ '<' :: t) = shortTags s ++ shortTags ('<' :: t) := by
  induction s with
  | nil => rfl
  | cons c s ih =>
      have here := tagAt?_append (c := c) (s := s) (t := t)
      rw [List.cons_append] at here ⊢
      rw [shortTags_cons, shortTags_cons, here, ih, List.append_assoc]

theorem shortTags_append_closing :
    shortTags (s ++ ("</>" ++ t)) = shortTags s ++ -1 :: shortTags t :=
  shortTags_append.trans (congrArg _ shortTags_closing)

theorem shortTags_shortFragment (children : Text) :
    shortTags (shortFragment children) = 1 :: (shortTags children ++ [-1]) :=
  shortTags_opening.trans (congrArg _ (shortTags_append_closing (t := [])))

end Tags

section Counting

variable {depth tag : Int} {tags : List Int}

theorem neverOvercloses_cons_iff :
    NeverOvercloses depth (tag :: tags) ↔ 0 ≤ depth ∧ NeverOvercloses (depth + tag) tags := by
  constructor
  · intro never
    refine ⟨by simpa using never [] (List.nil_prefix), fun front leads => ?_⟩
    have later := never (tag :: front) (List.cons_prefix_cons.mpr ⟨rfl, leads⟩)
    rw [List.sum_cons] at later
    omega
  · rintro ⟨nonneg, never⟩ front leads
    rcases List.prefix_cons_iff.mp leads with rfl | ⟨later, rfl, later_leads⟩
    · simpa using nonneg
    · have later_nonneg := never later later_leads
      rw [List.sum_cons]
      omega

theorem NeverOvercloses.nonneg (never : NeverOvercloses depth tags) : 0 ≤ depth := by
  simpa using never [] List.nil_prefix

/-- The scan of a text counts its tags and stops at one that closes too much. -/
theorem shortFragmentsClose_iff (depth : Nat) (s : Text) : shortFragmentsClose depth s ↔
    NeverOvercloses depth (shortTags s) ∧ depth + (shortTags s).sum = 0 := by
  fun_induction shortFragmentsClose depth s with
  | case1 depth => simp [NeverOvercloses]
  | case2 depth rest ih =>
      rw [ih, shortTags_opening, neverOvercloses_cons_iff, List.sum_cons, Int.natCast_succ,
        and_iff_right (Int.natCast_nonneg depth), Int.add_assoc]
  | case3 depth rest ih =>
      rw [shortTags_closing, neverOvercloses_cons_iff, List.sum_cons,
        and_iff_right (Int.natCast_nonneg depth)]
      cases depth with
      | zero =>
          refine iff_of_false (by simp) fun ⟨never, _⟩ => ?_
          exact absurd never.nonneg (by decide)
      | succ depth =>
          have one_less : ((depth + 1 : Nat) : Int) + -1 = depth := by omega
          simp only [ne_eq, Nat.add_one_ne_zero, not_false_eq_true, decide_true, Bool.true_and,
            Nat.add_one_sub_one] at ih ⊢
          rw [ih, ← Int.add_assoc, one_less]
  | case4 depth c rest not_opening not_closing ih =>
      have opens : ¬ startsWith (c :: rest) "<>" := fun starts => by
        obtain ⟨behind, parts⟩ := startsWith_iff.mp starts
        obtain ⟨rfl, rfl⟩ := List.cons.inj parts
        exact not_opening behind rfl rfl
      have closes : ¬ startsWith (c :: rest) "</>" := fun starts => by
        obtain ⟨behind, parts⟩ := startsWith_iff.mp starts
        obtain ⟨rfl, rfl⟩ := List.cons.inj parts
        exact not_closing behind rfl rfl
      have no_tag : tagAt? (c :: rest) = none := by
        rw [tagAt?, if_neg opens, if_neg closes]
      rw [ih, shortTags_cons, no_tag]
      rfl

/-- Between two tags the first one stays open exactly if no tag closes too much, and the last one
closes it exactly if all others are closed. -/
theorem lastClosesFirst_iff :
    LastClosesFirst (1 :: (tags ++ [-1])) ↔ NeverOvercloses 0 tags ∧ tags.sum = 0 := by
  have total : (1 :: (tags ++ [-1])).sum = tags.sum := by
    rw [List.sum_cons, List.sum_append, List.sum_singleton]
    omega
  constructor
  · rintro ⟨open_between, closed⟩
    refine ⟨fun front leads => ?_, total ▸ closed⟩
    have proper : 1 :: front ≠ 1 :: (tags ++ [-1]) := fun same => by
      have shorter := leads.length_le
      rw [(List.cons.inj same).2, List.length_append, List.length_singleton] at shorter
      omega
    have positive := open_between (1 :: front)
      (List.cons_prefix_cons.mpr ⟨rfl, leads.trans (List.prefix_append _ _)⟩)
      (List.cons_ne_nil _ _) proper
    rw [List.sum_cons] at positive
    omega
  · rintro ⟨never, closed⟩
    refine ⟨fun front leads nonempty proper => ?_, total ▸ closed⟩
    obtain ⟨inner, rfl, inner_leads⟩ := (List.prefix_cons_iff.mp leads).resolve_left nonempty
    rcases List.prefix_concat_iff.mp inner_leads with rfl | inside
    · contradiction
    · have nonneg := never inner inside
      rw [List.sum_cons]
      omega

end Counting

/-- Between a first and a last tag the children are found exactly if the text is one fragment. -/
theorem fragmentChildren?_shortFragment (children : Text) :
    fragmentChildren? (shortFragment children) =
      if LastClosesFirst (shortTags (shortFragment children)) then some children else none := by
  have opened : after? "<>" (shortFragment children) = some (children ++ "</>") :=
    after?_eq_some_iff.mpr rfl
  have closed : before? "</>" (children ++ "</>") = some children := before?_eq_some_iff.mpr rfl
  have counted : shortFragmentsClose 0 children ↔
      LastClosesFirst (shortTags (shortFragment children)) := by
    rw [shortFragmentsClose_iff, shortTags_shortFragment, lastClosesFirst_iff, Int.natCast_zero,
      Int.zero_add]
  rw [fragmentChildren?, opened]
  simp only [closed, Option.filter_some, counted]

/-- A closing tag in front of which nothing but the first tag is open ends the fragment early. -/
theorem not_lastClosesFirst_of_closing {children front back : Text}
    (parts : children = front ++ ("</>" ++ back)) (closed : (shortTags front).sum ≤ 0) :
    ¬ LastClosesFirst (shortTags (shortFragment children)) := by
  rw [shortTags_shortFragment, lastClosesFirst_iff, parts, shortTags_append_closing]
  rintro ⟨never, -⟩
  have early := never (shortTags front ++ [-1]) ⟨shortTags back, by simp⟩
  rw [List.sum_append, List.sum_singleton] at early
  omega

end Markup

namespace Repair

open Text Markup

/-- The children of a short fragment are found exactly if the closing tag that matches the first tag
is the last one, so neither fragments side by side nor a closing tag too many are taken for one
fragment.  The repair puts the children in its place, or nothing when they are blank. -/
theorem fragment_unwrapped_iff_one (children : Text) :
    (fragmentChildren? (shortFragment children) = some children ↔
      LastClosesFirst (shortTags (shortFragment children))) ∧
    (∀ front back, children = front ++ ("</>" ++ back) → (shortTags front).sum ≤ 0 →
      fragmentChildren? (shortFragment children) = none) ∧
    ∀ site : Site, site.text?.map trim = some (shortFragment children) →
      uselessFragment site =
        if LastClosesFirst (shortTags (shortFragment children)) then
          some (site.replaceRange "Remove this Fragment"
            (if isAllBlank children then [] else children))
        else none := by
  have found := fragmentChildren?_shortFragment children
  refine ⟨?_, fun front back parts closed => ?_, fun site covered => ?_⟩
  · rw [found, Option.ite_none_right_eq_some]
    exact and_iff_left rfl
  · rw [found, if_neg (not_lastClosesFirst_of_closing parts closed)]
  · obtain ⟨text, text_eq, trimmed⟩ := Option.map_eq_some_iff.mp covered
    simp only [uselessFragment, text_eq, Option.bind_eq_bind, Option.bind_some, trimmed, found]
    split <;> rfl

/-- A report about a fragment on the first line of a text. -/
def fragmentSite (text : Text) (first last : Nat) : Site :=
  .reporting "jsx-no-useless-fragment" text (.onLine 0 first last)

/-- Children with a fragment among them, and angle brackets that belong to no fragment. -/
def nestedChildren : Text := "a<b><>x</> < y</b>"

/-- A report about the fragment around these children. -/
def nestedFragment : Site :=
  fragmentSite ("return " ++ (shortFragment nestedChildren ++ ";")) 7 30

theorem fragment_unwrapped_around_nested :
    nestedFragment.text?.map trim = some (shortFragment nestedChildren) ∧
    fragmentChildren? (shortFragment nestedChildren) = some nestedChildren ∧
    uselessFragment nestedFragment =
      some (nestedFragment.replaceRange "Remove this Fragment" nestedChildren) ∧
    fragmentChildren? (shortFragment "<>a</></><>b") = none := by
  have covered : nestedFragment.text?.map trim = some (shortFragment nestedChildren) := by
    decide +kernel
  have one : LastClosesFirst (shortTags (shortFragment nestedChildren)) := by decide +kernel
  obtain ⟨found, -, offered⟩ := fragment_unwrapped_iff_one nestedChildren
  refine ⟨covered, found.mpr one, ?_, ?_⟩
  · rw [offered nestedFragment covered, if_pos one]
    rfl
  · exact (fragment_unwrapped_iff_one "<>a</></><>b").2.1 "<>a</>" "<>b" rfl (by decide)

end Repair

end LintRepair
