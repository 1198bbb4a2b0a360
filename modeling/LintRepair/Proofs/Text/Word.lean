import LintRepair.Proofs.Text.Nesting
import LintRepair.Text.Word

/-!
# Word characters and blanks

No blank is a word character, nor is any character that opens or closes something.
-/

namespace LintRepair

namespace Text

/-- Code points of the blanks. -/
def blankCodes : List Nat :=
  [0x09, 0x0A, 0x0B, 0x0C, 0x0D, 0x20, 0x85, 0xA0, 0x1680, 0x2000, 0x2001, 0x2002, 0x2003, 0x2004,
   0x2005, 0x2006, 0x2007, 0x2008, 0x2009, 0x200A, 0x2028, 0x2029, 0x202F, 0x205F, 0x3000]

theorem toNat_mem_of_isBlank {c : Char} (blank : isBlank c) : c.toNat ∈ blankCodes := by
  simp only [isBlank, Bool.or_eq_true, Bool.and_eq_true, decide_eq_true_eq] at blank
  simp only [blankCodes, List.mem_cons, List.not_mem_nil, or_false]
  omega

theorem isWord_of_isBlank {c : Char} (blank : isBlank c) : isWord c = false := by
  have codes : ∀ n ∈ blankCodes, isWord (Char.ofNat n) = false := by decide +kernel
  rw [← c.ofNat_toNat]
  exact codes _ (toNat_mem_of_isBlank blank)

theorem isWord_of_isDigit {c : Char} (digit : c.isDigit) : isWord c := by
  have small : c.toNat < 0x80 := by
    simp only [Char.isDigit, Bool.and_eq_true, decide_eq_true_eq] at digit
    exact Nat.lt_of_le_of_lt digit.2 (by decide)
  rw [isWord, if_pos small, Char.isAlphanum, digit, Bool.or_true, Bool.true_or]

/-- The quotes and brackets, and the marks around a binding and its name. -/
def delimiters : List Char :=
  ['\'', '"', '\x60', '(', '[', '{', ')', ']', '}', ',', ';', ':', '=']

section NameChar

variable {c : Char} (named : isWord c || c = '$')

include named

theorem visible_of_nameChar : isBlank c = false := by
  rw [← Bool.not_eq_true]
  intro blank
  rcases Bool.or_eq_true_iff.mp named with word | dollar
  · rw [isWord_of_isBlank blank] at word
    contradiction
  · rw [of_decide_eq_true dollar] at blank
    contradiction

theorem not_mem_delimiters_of_nameChar : c ∉ delimiters := by
  intro member
  have unnamed : delimiters.all fun d => !(isWord d || d = '$') := by decide
  have c_unnamed := List.all_eq_true.mp unnamed c member
  rw [named] at c_unnamed
  contradiction

theorem isPlain_of_nameChar : Nesting.IsPlain c := by
  have apart := not_mem_delimiters_of_nameChar named
  simp only [delimiters, List.mem_cons, List.not_mem_nil, or_false, not_or] at apart
  simp [Nesting.IsPlain, Nesting.isQuote, Nesting.isOpening, Nesting.isClosing, apart]

end NameChar

theorem visible_of_isDigit {c : Char} (digit : c.isDigit) : isBlank c = false :=
  visible_of_nameChar (by rw [isWord_of_isDigit digit, Bool.true_or])

end Text

end LintRepair
