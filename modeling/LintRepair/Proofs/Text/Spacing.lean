import LintRepair.Proofs.Text.Blank

/-!
# Texts of blanks and tokens

A text that starts with a blank, or is empty, is written in exactly one way as tokens with blanks
in front of each and blanks behind the last one.  The tokens are its words.
-/

namespace LintRepair

namespace Text

/-- A token with the blanks in front of it. -/
@[ext]
structure Spaced where
  /-- At least one blank. -/
  blanks : Text
  /-- The token. -/
  token : Text
  blanks_nonempty : blanks ≠ []
  blank : ∀ c ∈ blanks, isBlank c
  isToken : IsToken token

namespace Spaced

/-- What a token with blanks in front of it is written as. -/
def text (s : Spaced) : Text := s.blanks ++ s.token

/-- One more blank in front. -/
def push (s : Spaced) (c : Char) (c_blank : isBlank c) : Spaced where
  blanks := c :: s.blanks
  token := s.token
  blanks_nonempty := List.cons_ne_nil _ _
  blank := List.forall_mem_cons.mpr ⟨c_blank, s.blank⟩
  isToken := s.isToken

theorem indentation_text_append (s : Spaced) (rest : Text) :
    indentation (s.text ++ rest) = s.blanks := by
  obtain ⟨c, token, token_eq⟩ := List.exists_cons_of_ne_nil s.isToken.nonempty
  have visible := s.isToken.blank_free c (by simp [token_eq])
  rw [text, List.append_assoc, token_eq, List.cons_append]
  exact indentation_append_cons s.blank visible _

theorem endsWord_text_append (s : Spaced) (rest : Text) : EndsWord (s.text ++ rest) := by
  obtain ⟨c, blanks, blanks_eq⟩ := List.exists_cons_of_ne_nil s.blanks_nonempty
  rw [text, blanks_eq]
  exact endsWord_cons.mpr (s.blank c (by simp [blanks_eq]))

end Spaced

/-- Tokens with blanks in front of each, and blanks behind the last one. -/
@[ext]
structure Spacing where
  /-- The tokens in order, each with its blanks. -/
  spaced : List Spaced
  /-- Blanks behind the last token. -/
  trailing : Text
  trailing_blank : ∀ c ∈ trailing, isBlank c

namespace Spacing

/-- What tokens and blanks are written as. -/
def text (s : Spacing) : Text := s.spaced.flatMap Spaced.text ++ s.trailing

/-- The tokens without the blanks. -/
def tokens (s : Spacing) : List Text := s.spaced.map (·.token)

theorem endsWord_append {trailing : Text} (trailing_blank : ∀ c ∈ trailing, isBlank c)
    (spaced : List Spaced) : EndsWord (spaced.flatMap Spaced.text ++ trailing) := by
  cases spaced with
  | nil => exact fun c head => trailing_blank c (List.mem_of_mem_head? head)
  | cons first later =>
      rw [List.flatMap_cons, List.append_assoc]
      exact first.endsWord_text_append _

theorem endsWord_text (s : Spacing) : EndsWord s.text := endsWord_append s.trailing_blank s.spaced

/-- The words of what is written are the tokens. -/
theorem words_text (s : Spacing) : words s.text = s.tokens := by
  obtain ⟨spaced, trailing, trailing_blank⟩ := s
  simp only [text, tokens]
  induction spaced with
  | nil =>
      have wordless := words_append_blanks trailing_blank []
      simpa [words] using wordless
  | cons first later ih =>
      have ends := endsWord_append trailing_blank later
      rw [List.flatMap_cons, Spaced.text, List.append_assoc, List.append_assoc,
        words_blanks_append first.blank, words_append first.isToken ends, ih, List.map_cons]

/-- Every text is a run of visible characters with blanks and tokens behind it. -/
theorem exists_eq_append_text (s : Text) :
    ∃ (word : Text) (spacing : Spacing), (∀ c ∈ word, isBlank c = false) ∧
      s = word ++ spacing.text := by
  induction s with
  | nil => exact ⟨[], ⟨[], [], by simp⟩, by simp, rfl⟩
  | cons c s ih =>
      obtain ⟨word, ⟨spaced, trailing, trailing_blank⟩, visible, rfl⟩ := ih
      by_cases c_blank : isBlank c
      · -- A blank ends the run behind it, or joins the blanks there.
        cases word with
        | cons d word =>
            let first : Spaced := ⟨[c], d :: word, List.cons_ne_nil _ _, by simpa using c_blank,
              ⟨List.cons_ne_nil _ _, visible⟩⟩
            exact ⟨[], ⟨first :: spaced, trailing, trailing_blank⟩, by simp,
              by simp [text, Spaced.text, first]⟩
        | nil =>
            cases spaced with
            | nil =>
                exact ⟨[], ⟨[], c :: trailing, List.forall_mem_cons.mpr ⟨c_blank, trailing_blank⟩⟩,
                  by simp, rfl⟩
            | cons first later =>
                exact ⟨[], ⟨first.push c c_blank :: later, trailing, trailing_blank⟩, by simp,
                  by simp [text, Spaced.text, Spaced.push]⟩
      · exact ⟨c :: word, ⟨spaced, trailing, trailing_blank⟩,
          List.forall_mem_cons.mpr ⟨by simpa using c_blank, visible⟩, rfl⟩

theorem exists_text_eq {s : Text} (ends : EndsWord s) : ∃ spacing : Spacing, spacing.text = s := by
  obtain ⟨word, spacing, visible, rfl⟩ := exists_eq_append_text s
  cases word with
  | nil => exact ⟨spacing, rfl⟩
  | cons c word =>
      have c_blank := endsWord_cons.mp ends
      rw [visible c List.mem_cons_self] at c_blank
      contradiction

/-- A text is written as blanks and tokens in only one way. -/
theorem eq_of_text_eq {s t : Spacing} (same : s.text = t.text) : s = t := by
  have same_tokens : s.tokens = t.tokens := by rw [← words_text, same, words_text]
  obtain ⟨spaced, trailing, _⟩ := s
  obtain ⟨spaced', trailing', _⟩ := t
  simp only [text, tokens] at same same_tokens
  induction spaced generalizing spaced' with
  | nil =>
      obtain rfl := List.map_eq_nil_iff.mp same_tokens.symm
      exact Spacing.ext rfl same
  | cons first later ih =>
      obtain ⟨first', later', rfl, first_token, later_tokens⟩ :=
        List.map_eq_cons_iff.mp same_tokens.symm
      rw [List.flatMap_cons, List.flatMap_cons, List.append_assoc, List.append_assoc] at same
      have first_blanks : first.blanks = first'.blanks := by
        rw [← first.indentation_text_append, same, first'.indentation_text_append]
      obtain rfl : first = first' := Spaced.ext first_blanks first_token.symm
      have later_eq := ih later' (List.append_cancel_left same) later_tokens.symm
      obtain ⟨rfl, rfl⟩ := Spacing.mk.inj later_eq
      rfl

end Spacing

end Text

end LintRepair
