import LintRepair.Proofs.Text.Piece
import Mathlib.Data.List.TakeWhile

/-!
# Blanks at the ends and between words

Blanks at an end of a text do not change what is left when it is trimmed, nor its words.  The words
of a text are tokens, and tokens written with blanks between them are the words of what is written.
-/

namespace LintRepair

namespace Text

theorem visible_of_all {s : Text} (visible : s.all fun c => !isBlank c) :
    ∀ c ∈ s, isBlank c = false := by
  simpa using visible

theorem blank_of_isAllBlank {s : Text} (all_blank : isAllBlank s) : ∀ c ∈ s, isBlank c :=
  List.all_eq_true.mp all_blank

/-- A non-empty text without blanks. -/
structure IsToken (s : Text) : Prop where
  nonempty : s ≠ []
  blank_free : ∀ c ∈ s, isBlank c = false

theorem IsToken.newline_not_mem {s : Text} (isToken : IsToken s) : '\n' ∉ s :=
  fun member => absurd (isToken.blank_free _ member) (by decide)

theorem IsToken.singleton {c : Char} (visible : isBlank c = false) : IsToken [c] :=
  ⟨List.cons_ne_nil _ _, by simpa using visible⟩

theorem IsToken.cons {c : Char} {s : Text} (visible : isBlank c = false) (isToken : IsToken s) :
    IsToken (c :: s) :=
  ⟨List.cons_ne_nil _ _, List.forall_mem_cons.mpr ⟨visible, isToken.blank_free⟩⟩

/-- Whether a text is empty or starts with a blank, so that a word in front of it ends there. -/
def EndsWord (s : Text) : Prop := ∀ c ∈ s.head?, isBlank c

@[simp]
theorem endsWord_nil : EndsWord [] := by simp [EndsWord]

@[simp]
theorem endsWord_cons {c : Char} {s : Text} : EndsWord (c :: s) ↔ isBlank c := by simp [EndsWord]

theorem endsWord_append_blank {c : Char} (blank : isBlank c) {s : Text} :
    EndsWord (s ++ [c]) ↔ EndsWord s := by
  cases s with
  | nil => simpa using blank
  | cons d s => simp

section Ends

variable {s : Text} {c : Char}

theorem indentation_append {blanks : Text} (blank : ∀ c ∈ blanks, isBlank c) (s : Text) :
    indentation (blanks ++ s) = blanks ++ indentation s :=
  List.takeWhile_append_of_pos blank

theorem trimStart_append {blanks : Text} (blank : ∀ c ∈ blanks, isBlank c) (s : Text) :
    trimStart (blanks ++ s) = trimStart s :=
  List.dropWhile_append_of_pos blank

theorem indentation_append_cons {blanks : Text} (blank : ∀ c ∈ blanks, isBlank c)
    (visible : isBlank c = false) (s : Text) : indentation (blanks ++ c :: s) = blanks := by
  rw [indentation_append blank]
  simp [indentation, visible]

theorem trimStart_append_cons {blanks : Text} (blank : ∀ c ∈ blanks, isBlank c)
    (visible : isBlank c = false) (s : Text) : trimStart (blanks ++ c :: s) = c :: s := by
  rw [trimStart_append blank]
  simp [trimStart, visible]

/-- A text without blanks at its start is left as it is. -/
theorem indentation_eq_nil (visible : ∀ c ∈ s.head?, isBlank c = false) :
    indentation s = [] ∧ trimStart s = s := by
  cases s with
  | nil => exact ⟨rfl, rfl⟩
  | cons c s =>
      have c_visible : isBlank c = false := visible c rfl
      exact ⟨indentation_append_cons (List.forall_mem_nil _) c_visible s,
        trimStart_append_cons (List.forall_mem_nil _) c_visible s⟩

theorem afterBlanks?_append {blanks : Text} (nonempty : blanks ≠ [])
    (blank : ∀ c ∈ blanks, isBlank c) (s : Text) :
    afterBlanks? (blanks ++ s) = some (trimStart s) := by
  obtain ⟨c, later, rfl⟩ := List.exists_cons_of_ne_nil nonempty
  obtain ⟨first, rest⟩ := List.forall_mem_cons.mp blank
  rw [List.cons_append, afterBlanks?, if_pos first, trimStart_append rest]

/-- The blanks before a visible character are determined by the whole text. -/
theorem append_inj_of_blank {blanks other t : Text} {d : Char} (blank : ∀ c ∈ blanks, isBlank c)
    (other_blank : ∀ c ∈ other, isBlank c) (c_visible : isBlank c = false)
    (d_visible : isBlank d = false) (parts : blanks ++ c :: s = other ++ d :: t) :
    blanks = other ∧ c :: s = d :: t := by
  have same := congrArg indentation parts
  rw [indentation_append_cons blank c_visible, indentation_append_cons other_blank d_visible]
    at same
  subst same
  exact ⟨rfl, List.append_cancel_left parts⟩

/-- The blanks a text starts with end before its first visible character. -/
theorem exists_of_eq_blanks_append {blanks back lead : Text} (blank : ∀ c ∈ blanks, isBlank c)
    (visible : isBlank c = false) (parts : lead ++ c :: s = blanks ++ back) :
    ∃ more, lead = blanks ++ more ∧ back = more ++ c :: s := by
  rcases List.append_eq_append_iff.mp parts with ⟨beyond, rfl, same⟩ | ⟨more, rfl, same⟩
  · cases beyond with
    | nil => exact ⟨[], by simp, same.symm⟩
    | cons d beyond =>
        obtain ⟨rfl, -⟩ := List.cons.inj same
        have c_blank := blank c (by simp)
        rw [visible] at c_blank
        contradiction
  · exact ⟨more, rfl, same⟩

/-- The blanks a text ends with start behind its last visible character. -/
theorem exists_of_eq_append_blanks {blanks front trail : Text} (blank : ∀ c ∈ blanks, isBlank c)
    (visible : isBlank c = false) (parts : s ++ c :: trail = front ++ blanks) :
    ∃ more, trail = more ++ blanks ∧ front = s ++ c :: more := by
  have reversed : trail.reverse ++ c :: s.reverse = blanks.reverse ++ front.reverse := by
    simpa using congrArg List.reverse parts
  obtain ⟨more, trail_eq, front_eq⟩ := exists_of_eq_blanks_append
    (fun d member => blank d (List.mem_reverse.mp member)) visible reversed
  refine ⟨more.reverse, ?_, ?_⟩
  · simpa using congrArg List.reverse trail_eq
  · simpa using congrArg List.reverse front_eq

theorem blank_of_mem_indentation (member : c ∈ indentation s) : isBlank c :=
  List.mem_takeWhile_imp member

theorem blank_of_mem_trailing (member : c ∈ trailing s) : isBlank c :=
  List.mem_takeWhile_imp (List.mem_reverse.mp member)

theorem exists_of_afterBlanks? {rest : Text} (found : afterBlanks? s = some rest) :
    ∃ blanks, s = blanks ++ rest ∧ blanks ≠ [] ∧ ∀ c ∈ blanks, isBlank c := by
  cases s with
  | nil => contradiction
  | cons c s =>
      rw [afterBlanks?] at found
      split at found
      · rename_i blank
        obtain rfl := Option.some.inj found
        refine ⟨c :: indentation s, by simp, List.cons_ne_nil _ _, ?_⟩
        exact List.forall_mem_cons.mpr ⟨blank, fun _ => blank_of_mem_indentation⟩
      · contradiction

/-- The gap between two texts is made of the blanks behind the one and in front of the other. -/
theorem blank_of_mem_gap {t : Text} (member : c ∈ trailing s ++ indentation t) : isBlank c :=
  (List.mem_append.mp member).elim blank_of_mem_trailing blank_of_mem_indentation

theorem trimEnd_append_blank (blank : isBlank c) (s : Text) : trimEnd (s ++ [c]) = trimEnd s := by
  simp [trimEnd, blank]

/-- Up to a visible character nothing is trimmed from the end. -/
theorem trimEnd_append_cons (visible : isBlank c = false) (front rest : Text) :
    trimEnd (front ++ c :: rest) = front ++ c :: trimEnd rest := by
  have reversed : (front ++ c :: rest).reverse = rest.reverse ++ c :: front.reverse := by simp
  rw [trimEnd, trimEnd, reversed, List.dropWhile_append]
  split
  · rename_i rest_blank
    rw [List.isEmpty_iff] at rest_blank
    simp [rest_blank, visible]
  · simp

theorem visible_of_getLast? (trimmed : trimEnd s = s) (last : s.getLast? = some c) :
    isBlank c = false := by
  obtain ⟨front, rfl⟩ := List.getLast?_eq_some_iff.mp last
  rw [← Bool.not_eq_true]
  intro blank
  rw [trimEnd_append_blank blank] at trimmed
  have shortened := (trimEnd_isPrefix front).length_le
  rw [trimmed, List.length_append] at shortened
  exact absurd shortened (by simp)

theorem trimEnd_of_blank {blanks : Text} (blank : ∀ c ∈ blanks, isBlank c) :
    trimEnd blanks = [] := by
  have exhausted : blanks.reverse.dropWhile isBlank = [] :=
    List.dropWhile_eq_nil_iff.mpr fun c member => blank c (List.mem_reverse.mp member)
  rw [trimEnd, exhausted, List.reverse_nil]

theorem trimEnd_append_cons_blank (visible : isBlank c = false) {blanks : Text}
    (blank : ∀ c ∈ blanks, isBlank c) (front : Text) :
    trimEnd (front ++ c :: blanks) = front ++ [c] := by
  rw [trimEnd_append_cons visible, trimEnd_of_blank blank]

theorem trim_append_blank (blank : isBlank c) (s : Text) : trim (s ++ [c]) = trim s := by
  rw [trim, trim, trimStart, List.dropWhile_append]
  split
  · rename_i all_blank
    rw [List.isEmpty_iff] at all_blank
    simp [trimStart, all_blank, blank]
  · exact trimEnd_append_blank blank _

theorem trim_append_blanks {blanks : Text} (blank : ∀ c ∈ blanks, isBlank c) (s : Text) :
    trim (s ++ blanks) = trim s := by
  induction blanks generalizing s with
  | nil => rw [List.append_nil]
  | cons c blanks ih =>
      obtain ⟨c_blank, later_blank⟩ := List.forall_mem_cons.mp blank
      rw [List.append_cons, ih later_blank, trim_append_blank c_blank]

theorem trim_blanks_append {blanks : Text} (blank : ∀ c ∈ blanks, isBlank c) (s : Text) :
    trim (blanks ++ s) = trim s := by
  rw [trim, trim, trimStart_append blank]

/-- From a visible character on nothing is trimmed from the start. -/
theorem trimStart_append_visible (visible : isBlank c = false) (front rest : Text) :
    trimStart (front ++ c :: rest) = trimStart front ++ c :: rest := by
  rw [trimStart, trimStart, List.dropWhile_append]
  split
  · rename_i front_blank
    rw [List.isEmpty_iff] at front_blank
    simp [front_blank, visible]
  · rfl

/-- What is put behind a text that is not blank leaves the blanks at its start. -/
theorem indentation_append_of_visible (visible : ¬ isAllBlank s) (behind : Text) :
    indentation (s ++ behind) = indentation s ∧
      trimStart (s ++ behind) = trimStart s ++ behind := by
  have nonempty : trimStart s ≠ [] := fun all_blank =>
    visible (List.all_eq_true.mpr (List.dropWhile_eq_nil_iff.mp all_blank))
  have parts := congrArg List.length (indentation_append_trimStart s)
  have rest_pos := List.length_pos_iff.mpr nonempty
  rw [List.length_append] at parts
  have partial_indent : (indentation s).length ≠ s.length := by omega
  constructor
  · exact List.takeWhile_append.trans (if_neg partial_indent)
  · exact List.dropWhile_append.trans (if_neg (mt List.isEmpty_iff.mp nonempty))

/-- A text is its blanks at the two ends and what is left when it is trimmed. -/
theorem eq_append_trim (s : Text) :
    s = indentation s ++ (trim s ++ trailing (trimStart s)) := by
  rw [trim, trimEnd_append_trailing, indentation_append_trimStart]

theorem exists_eq_append_trim (s : Text) : ∃ lead trail, s = lead ++ (trim s ++ trail) ∧
    (∀ c ∈ lead, isBlank c) ∧ ∀ c ∈ trail, isBlank c :=
  ⟨_, _, eq_append_trim s, fun _ => blank_of_mem_indentation, fun _ => blank_of_mem_trailing⟩

@[simp]
theorem trim_trim (s : Text) : trim (trim s) = trim s := by
  calc
    trim (trim s) = trim (indentation s ++ (trim s ++ trailing (trimStart s))) := by
      rw [trim_blanks_append fun _ => blank_of_mem_indentation,
        trim_append_blanks fun _ => blank_of_mem_trailing]
    _ = trim s := by rw [← eq_append_trim]

/-- Blanks are trimmed up to a token on either side. -/
theorem trim_append_token {token : Text} (isToken : IsToken token) (front back : Text) :
    trim (front ++ (token ++ back)) = trimStart front ++ (token ++ trimEnd back) := by
  obtain ⟨nonempty, blank_free⟩ := isToken
  have started : trimStart (front ++ (token ++ back)) = trimStart front ++ (token ++ back) := by
    obtain ⟨c, token, rfl⟩ := List.exists_cons_of_ne_nil nonempty
    exact trimStart_append_visible (blank_free c List.mem_cons_self) front (token ++ back)
  obtain ⟨token, c, rfl⟩ := (List.eq_nil_or_concat token).resolve_left nonempty
  have c_visible : isBlank c = false := blank_free c (by simp)
  have ended := trimEnd_append_cons c_visible (trimStart front ++ token) back
  rw [trim, started]
  simpa using ended

/-- A text between two visible characters has no blanks at its ends. -/
theorem trim_between {first last : Char} (first_visible : isBlank first = false)
    (last_visible : isBlank last = false) (s : Text) :
    trim (first :: (s ++ [last])) = first :: (s ++ [last]) := by
  have trimmed := trim_append_token (.singleton first_visible) [] (s ++ [last])
  rw [trimEnd_append_cons last_visible] at trimmed
  exact trimmed

theorem visible_of_mem_head?_trim (first : c ∈ (trim s).head?) : isBlank c = false := by
  obtain ⟨rest, trimmed⟩ := List.head?_eq_some_iff.mp first
  have started := trimEnd_append_trailing (trimStart s)
  rw [← trim, trimmed, List.cons_append] at started
  have visible := List.head?_dropWhile_not isBlank s
  rw [← trimStart, ← started] at visible
  simpa using visible

theorem visible_of_mem_getLast?_trim (last : c ∈ (trim s).getLast?) : isBlank c = false := by
  rw [trim, trimEnd, List.getLast?_reverse] at last
  have visible := List.head?_dropWhile_not isBlank (trimStart s).reverse
  rw [Option.mem_def.mp last] at visible
  simpa using visible

theorem visible_of_trim_cons (trimmed : trim (c :: s) = c :: s) : isBlank c = false := by
  have first : c ∈ (trim (c :: s)).head? := by
    rw [trimmed]
    rfl
  exact visible_of_mem_head?_trim first

theorem visible_of_trim_concat (trimmed : trim (s ++ [c]) = s ++ [c]) : isBlank c = false := by
  have last : c ∈ (trim (s ++ [c])).getLast? := by
    rw [trimmed]
    simp
  exact visible_of_mem_getLast?_trim last

/-- The blanks around a trimmed text are those at the two ends of the whole. -/
theorem ends_of_trimmed {lead trail : Text} (lead_blank : ∀ c ∈ lead, isBlank c)
    (trail_blank : ∀ c ∈ trail, isBlank c) (nonempty : s ≠ []) (trimmed : trim s = s) :
    indentation (lead ++ (s ++ trail)) = lead ∧ trim (lead ++ (s ++ trail)) = s ∧
      trailing (lead ++ (s ++ trail)) = trail := by
  refine ⟨?_, ?_, ?_⟩
  · obtain ⟨c, rest, rfl⟩ := List.exists_cons_of_ne_nil nonempty
    exact indentation_append_cons lead_blank (visible_of_trim_cons trimmed) _
  · rw [trim_blanks_append lead_blank, trim_append_blanks trail_blank, trimmed]
  · obtain ⟨front, c, rfl⟩ := (List.eq_nil_or_concat s).resolve_left nonempty
    rw [List.concat_eq_append] at trimmed ⊢
    have parts : lead ++ (front ++ [c] ++ trail) = (lead ++ front) ++ c :: trail := by simp
    have ended := trimEnd_append_trailing ((lead ++ front) ++ c :: trail)
    rw [trimEnd_append_cons_blank (visible_of_trim_concat trimmed) trail_blank] at ended
    rw [parts]
    exact List.append_cancel_left (ended.trans (List.append_cons _ _ _))

theorem mem_of_mem_trim (member : c ∈ trim s) : c ∈ s := by
  rw [eq_append_trim s]
  exact List.mem_append_right _ (List.mem_append_left _ member)

theorem trim_eq_nil_iff {s : Text} : trim s = [] ↔ ∀ c ∈ s, isBlank c := by
  constructor
  · intro trimmed c member
    rw [eq_append_trim s, trimmed, List.nil_append] at member
    exact (List.mem_append.mp member).elim blank_of_mem_indentation blank_of_mem_trailing
  · intro blank
    have started : trimStart s = [] := List.dropWhile_eq_nil_iff.mpr blank
    rw [trim, started]
    rfl

end Ends

section Words

variable {c : Char}

theorem words_cons_blank (blank : isBlank c) (s : Text) : words (c :: s) = words s := by
  rw [words.eq_def]
  simp [blank]

theorem words_append {token s : Text} (isToken : IsToken token) (ends : EndsWord s) :
    words (token ++ s) = token :: words s := by
  obtain ⟨nonempty, blank_free⟩ := isToken
  induction token with
  | nil => contradiction
  | cons c token ih =>
      obtain ⟨visible, later_visible⟩ := List.forall_mem_cons.mp blank_free
      cases token with
      | nil =>
          cases s with
          | nil => simp [words, visible]
          | cons d s =>
              have blank := endsWord_cons.mp ends
              simp [words, visible, blank]
      | cons d token =>
          have d_visible := later_visible d List.mem_cons_self
          have later := ih (List.cons_ne_nil _ _) later_visible
          rw [List.cons_append] at later ⊢
          rw [List.cons_append, words]
          simp only [visible, d_visible, Bool.false_eq_true, if_false]
          rw [later]
          rfl

theorem endsWord_flatMap_cons (tokens : List Text) : EndsWord (tokens.flatMap (' ' :: ·)) := by
  cases tokens with
  | nil => exact endsWord_nil
  | cons token tokens => exact endsWord_cons.mpr (by decide)

theorem newline_not_mem_flatMap_cons {tokens : List Text}
    (isToken : ∀ token ∈ tokens, IsToken token) : '\n' ∉ tokens.flatMap (' ' :: ·) := by
  intro member
  obtain ⟨token, token_mem, inside⟩ := List.mem_flatMap.mp member
  rcases List.mem_cons.mp inside with newline_eq | behind
  · contradiction
  · exact (isToken token token_mem).newline_not_mem behind

/-- Tokens with a space in front of each are the words of what is written. -/
theorem words_flatMap_cons {tokens : List Text} (isToken : ∀ token ∈ tokens, IsToken token) :
    words (tokens.flatMap (' ' :: ·)) = tokens := by
  induction tokens with
  | nil => rfl
  | cons token tokens ih =>
      obtain ⟨first, later⟩ := List.forall_mem_cons.mp isToken
      rw [List.flatMap_cons, List.cons_append, words_cons_blank (by decide),
        words_append first (endsWord_flatMap_cons tokens), ih later]

theorem words_append_blank (blank : isBlank c) (s : Text) : words (s ++ [c]) = words s := by
  induction s with
  | nil => simp [words, blank]
  | cons d s ih =>
      by_cases d_blank : isBlank d
      · rw [List.cons_append, words_cons_blank d_blank, words_cons_blank d_blank, ih]
      · cases s with
        | nil => simp [words, d_blank, blank]
        | cons e s =>
            rw [List.cons_append] at ih
            rw [List.cons_append, List.cons_append, words, words, ih]

theorem words_append_blanks {blanks : Text} (blank : ∀ c ∈ blanks, isBlank c) (s : Text) :
    words (s ++ blanks) = words s := by
  induction blanks generalizing s with
  | nil => simp
  | cons c blanks ih =>
      obtain ⟨c_blank, later_blank⟩ := List.forall_mem_cons.mp blank
      rw [List.append_cons, ih later_blank, words_append_blank c_blank]

theorem words_blanks_append {blanks : Text} (blank : ∀ c ∈ blanks, isBlank c) (s : Text) :
    words (blanks ++ s) = words s := by
  induction blanks with
  | nil => rfl
  | cons c blanks ih =>
      obtain ⟨c_blank, later_blank⟩ := List.forall_mem_cons.mp blank
      rw [List.cons_append, words_cons_blank c_blank, ih later_blank]

@[simp]
theorem words_trim (s : Text) : words (trim s) = words s := by
  calc
    words (trim s) = words (trimEnd (trimStart s) ++ trailing (trimStart s)) :=
      (words_append_blanks (fun _ => blank_of_mem_trailing) _).symm
    _ = words (indentation s ++ trimStart s) := by
      rw [trimEnd_append_trailing, words_blanks_append fun _ => blank_of_mem_indentation]
    _ = words s := by rw [indentation_append_trimStart]

/-- The words of a text are tokens. -/
theorem isToken_of_mem_words {s token : Text} (member : token ∈ words s) : IsToken token := by
  fun_induction words s generalizing token with
  | case1 => contradiction
  | case2 c s blank ih => exact ih member
  | case3 c visible =>
      obtain rfl := List.mem_singleton.mp member
      exact .singleton (by simpa using visible)
  | case4 c visible d s blank ih =>
      rcases List.mem_cons.mp member with rfl | later
      · exact .singleton (by simpa using visible)
      · exact ih later
  | case5 c visible d s d_visible ih =>
      have c_visible : isBlank c = false := by simpa using visible
      cases pieces : words (d :: s) with
      | nil =>
          rw [pieces, pushFirst, List.mem_singleton] at member
          exact member ▸ .singleton c_visible
      | cons piece later =>
          rw [pieces] at ih member
          rcases List.mem_cons.mp member with rfl | behind
          · exact .cons c_visible (ih List.mem_cons_self)
          · exact ih (List.mem_cons_of_mem _ behind)

end Words

end Text

end LintRepair
