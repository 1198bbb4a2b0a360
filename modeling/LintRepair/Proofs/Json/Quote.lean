import Mathlib.Data.Option.Basic
import Mathlib.Tactic.Common
import LintRepair.Json.Reader
import LintRepair.Json.Writer

/-!
# Quoted texts are read back

Every character of a text is written as one escape of a letter, as one escape by number, or as
itself.  Whichever it is, the reader takes it for a single part, and that part stands for the
character whatever parts come behind it; no surrogates are ever written.  So a quoted text is read
back character by character.
-/

namespace LintRepair

namespace Json

/-- The three forms of a character inside a string. -/
theorem escape_cases (c : Char) :
    (∃ e, escape c = ['\\', e] ∧ e ≠ 'u' ∧ shortEscape? e = some c)
      ∨ (escape c = ['\\', 'u', '0', '0', hexDigit (c.toNat / 16), hexDigit (c.toNat % 16)]
        ∧ c.toNat < 0x20)
      ∨ (escape c = [c] ∧ c ≠ '"' ∧ c ≠ '\\' ∧ 0x20 ≤ c.toNat) := by
  by_cases quote : c = '"'
  · exact .inl ⟨'"', by simp [quote, escape], by decide, by rw [quote]; rfl⟩
  by_cases backslash : c = '\\'
  · exact .inl ⟨'\\', by simp [backslash, escape], by decide, by rw [backslash]; rfl⟩
  by_cases backspace : c = '\x08'
  · exact .inl ⟨'b', by simp [backspace, escape], by decide, by rw [backspace]; rfl⟩
  by_cases feed : c = '\x0c'
  · exact .inl ⟨'f', by simp [feed, escape], by decide, by rw [feed]; rfl⟩
  by_cases line : c = '\n'
  · exact .inl ⟨'n', by simp [line, escape], by decide, by rw [line]; rfl⟩
  by_cases carriage : c = '\r'
  · exact .inl ⟨'r', by simp [carriage, escape], by decide, by rw [carriage]; rfl⟩
  by_cases tab : c = '\t'
  · exact .inl ⟨'t', by simp [tab, escape], by decide, by rw [tab]; rfl⟩
  have plain : escape c = if c.toNat < 0x20 then
      ['\\', 'u', '0', '0', hexDigit (c.toNat / 16), hexDigit (c.toNat % 16)] else [c] := by
    simp only [escape, if_neg quote, if_neg backslash, if_neg backspace, if_neg feed,
      if_neg line, if_neg carriage, if_neg tab]
  by_cases control : c.toNat < 0x20
  · exact .inr (.inl ⟨by rw [plain, if_pos control], control⟩)
  · exact .inr (.inr ⟨by rw [plain, if_neg control], quote, backslash, by omega⟩)

/-! ### Single characters -/

theorem hexValue?_hexDigit {n : Nat} (small : n < 16) : hexValue? (hexDigit n) = some n := by
  have all : ∀ d : Fin 16, hexValue? (hexDigit d.val) = some d.val := by decide
  exact all ⟨n, small⟩

/-- A unit below the surrogates stands for its character, whatever follows it. -/
theorem ofParts?_unit {n : Nat} (low : n < 0xD800) (parts : List StringPart) :
    ofParts? (.unit n :: parts) = (ofParts? parts).map (Char.ofNat n :: ·) := by
  have noHigh : ¬(0xD800 ≤ n ∧ n < 0xDC00) := by omega
  have noLow : ¬(0xDC00 ≤ n ∧ n < 0xE000) := by omega
  have noSurrogate : ¬(0xD800 ≤ n ∧ n < 0xE000) := by omega
  cases parts with
  | nil => simp [ofParts?, noSurrogate]
  | cons part parts =>
      cases part with
      | char c => simp [ofParts?, noSurrogate]
      | unit m => rw [ofParts?, if_neg noHigh, if_neg noLow]

theorem stringParts?_short {e c : Char} (letter : e ≠ 'u') (short : shortEscape? e = some c)
    (s : Text) :
    stringParts? ('\\' :: e :: s) =
      (stringParts? s).map fun read => (.char c :: read.1, read.2) := by
  cases read : stringParts? s <;> simp [stringParts?, letter, short, read]

theorem stringParts?_plain {c : Char} (quote : c ≠ '"') (backslash : c ≠ '\\')
    (visible : 0x20 ≤ c.toNat) (s : Text) :
    stringParts? (c :: s) = (stringParts? s).map fun read => (.char c :: read.1, read.2) := by
  cases read : stringParts? s <;> simp [stringParts?, backslash, visible, read]

theorem stringParts?_control {n : Nat} (control : n < 0x20) (s : Text) :
    stringParts? ('\\' :: 'u' :: '0' :: '0' :: hexDigit (n / 16) :: hexDigit (n % 16) :: s) =
      (stringParts? s).map fun read => (.unit n :: read.1, read.2) := by
  have zero : hexValue? '0' = some 0 := rfl
  have high : hexValue? (hexDigit (n / 16)) = some (n / 16) := hexValue?_hexDigit (by omega)
  have low : hexValue? (hexDigit (n % 16)) = some (n % 16) := hexValue?_hexDigit (by omega)
  have unit : n / 16 * 16 + n % 16 = n := by omega
  cases read : stringParts? s <;> simp [stringParts?, zero, high, low, unit, read]

/-- The reader takes a written character for one part, and that part stands for the character. -/
theorem exists_part (c : Char) :
    ∃ part, (∀ s, stringParts? (escape c ++ s) =
        (stringParts? s).map fun read => (part :: read.1, read.2))
      ∧ ∀ parts, ofParts? (part :: parts) = (ofParts? parts).map (c :: ·) := by
  rcases escape_cases c with ⟨e, written, letter, short⟩ | ⟨written, control⟩
    | ⟨written, quote, backslash, visible⟩
  · exact ⟨.char c, fun s => by rw [written]; exact stringParts?_short letter short s,
      fun parts => by rw [ofParts?]⟩
  · refine ⟨.unit c.toNat, fun s => ?_, fun parts => ?_⟩
    · rw [written]
      exact stringParts?_control control s
    · rw [ofParts?_unit (by omega), Char.ofNat_toNat]
  · exact ⟨.char c, fun s => by rw [written]; exact stringParts?_plain quote backslash visible s,
      fun parts => by rw [ofParts?]⟩

/-! ### Whole texts -/

theorem quote_append (s rest : Text) :
    quote s ++ rest = '"' :: (s.flatMap escape ++ '"' :: rest) := by
  simp [quote]

/-- What stands between the quotes of a text is read back as the text. -/
theorem exists_parts (s : Text) :
    ∃ parts, (∀ rest, stringParts? (s.flatMap escape ++ '"' :: rest) = some (parts, rest))
      ∧ ofParts? parts = some s := by
  induction s with
  | nil => exact ⟨[], fun rest => by simp [stringParts?], rfl⟩
  | cons c s ih =>
      obtain ⟨part, first, single⟩ := exists_part c
      obtain ⟨parts, others, whole⟩ := ih
      refine ⟨part :: parts, fun rest => ?_, ?_⟩
      · rw [List.flatMap_cons, List.append_assoc, first, others]
        rfl
      · rw [single, whole]
        rfl

end Json

end LintRepair
