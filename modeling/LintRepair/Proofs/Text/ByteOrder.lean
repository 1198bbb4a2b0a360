import Mathlib.Data.Char
import Mathlib.Data.List.Lex
import LintRepair.Text.Basic

/-!
# The order of bytes

Texts are compared by code points.  UTF-8 keeps this order: characters in order are encoded in
order, whatever stands behind them, so the same comparison is made on the bytes.
-/

namespace LintRepair

namespace Text

/-- The UTF-8 bytes of a text. -/
def bytes (s : Text) : List UInt8 := s.flatMap String.utf8EncodeChar

theorem bytes_cons (c : Char) (s : Text) : bytes (c :: s) = String.utf8EncodeChar c ++ bytes s :=
  List.flatMap_cons

theorem precedes_iff_lt {s t : Text} : precedes s t ↔ s < t := by
  induction s generalizing t with
  | nil => cases t <;> simp [precedes]
  | cons c s ih =>
      cases t with
      | nil => simp [precedes]
      | cons d t => simp [precedes, List.cons_lt_cons_iff, ih]

theorem val_toNat_lt (c : Char) : c.val.toNat < 0x110000 := by
  have valid := c.valid
  unfold UInt32.isValidChar Nat.isValidChar at valid
  omega

/-- The encodings of two characters differ at some byte, and the first such byte decides. -/
theorem utf8EncodeChar_append_lt {c d : Char} (less : c < d) (s t : List UInt8) :
    String.utf8EncodeChar c ++ s < String.utf8EncodeChar d ++ t := by
  have values : c.val.toNat < d.val.toNat := less
  have c_bound := val_toNat_lt c
  have d_bound := val_toNat_lt d
  have third_digit (n : Nat) : n / 4096 = n / 64 / 64 := by omega
  have fourth_digit (n : Nat) : n / 262144 = n / 64 / 64 / 64 := by omega
  simp only [String.utf8EncodeChar, third_digit, fourth_digit]
  split_ifs <;>
    simp only [List.cons_append, List.nil_append, List.cons_lt_cons_iff, UInt8.lt_iff_toNat_lt,
      ← UInt8.toNat_inj, UInt8.toNat_ofNat'] <;>
    omega

theorem nil_lt_bytes_cons (c : Char) (s : Text) : [] < bytes (c :: s) := by
  obtain ⟨first, later, encoded⟩ :=
    List.exists_cons_of_ne_nil (String.utf8EncodeChar_ne_nil (c := c))
  rw [bytes_cons, encoded, List.cons_append]
  exact List.nil_lt_cons _ _

theorem bytes_lt_bytes_of_lt {s t : Text} (less : s < t) : bytes s < bytes t := by
  induction s generalizing t with
  | nil =>
      cases t with
      | nil => exact absurd less (List.lt_irrefl _)
      | cons d t => exact nil_lt_bytes_cons d t
  | cons c s ih =>
      cases t with
      | nil => exact absurd less (List.not_lt_nil _)
      | cons d t =>
          rw [bytes_cons, bytes_cons]
          rcases List.cons_lt_cons_iff.mp less with first | ⟨rfl, later⟩
          · exact utf8EncodeChar_append_lt first _ _
          · exact List.append_left_lt (ih later)

theorem precedes_iff_bytes_lt {s t : Text} : precedes s t ↔ bytes s < bytes t := by
  rw [precedes_iff_lt]
  refine ⟨bytes_lt_bytes_of_lt, fun less => ?_⟩
  rcases lt_trichotomy s t with before | rfl | behind
  · exact before
  · exact absurd less (List.lt_irrefl _)
  · exact absurd (List.lt_trans less (bytes_lt_bytes_of_lt behind)) (List.lt_irrefl _)

end Text

end LintRepair
