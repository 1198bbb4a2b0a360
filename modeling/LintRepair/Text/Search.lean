import LintRepair.Text.Blank
import LintRepair.Text.Word

/-!
# Searching and replacing

A recogniser looks at one place of a text: given the characters before the place, nearest first,
and the text from it on, it either gives a value and the text it leaves, or refuses.  Searching
takes the leftmost place that is not refused; replacing rebuilds what is recognised, one place after
another, and keeps the rest.  Recognisers are put together from the steps at the end of this file.
-/

namespace LintRepair

namespace Text

/-- A recogniser at one place, given the characters before it, nearest first, and the text from it
on. -/
abbrev Recogniser (α : Type) := Text → Text → Option (α × Text)

/-- What a search found: the text around the place, and the value recognised there. -/
structure Found (α : Type) where
  /-- Text before the place. -/
  before : Text
  /-- Value recognised at the place. -/
  value : α
  /-- Text left by the recogniser. -/
  rest : Text

/-- The leftmost place that is recognised, from a place on. -/
def search (recognise : Recogniser α) (before s : Text) : Option (Found α) :=
  match recognise before s, s with
  | some (value, rest), _ => some ⟨[], value, rest⟩
  | none, [] => none
  | none, c :: cs =>
      (search recognise (c :: before) cs).map fun found =>
        { found with before := c :: found.before }

/-- The leftmost place of a whole text that is recognised. -/
def find? (recognise : Recogniser α) (s : Text) : Option (Found α) := search recognise [] s

/-- The value at the leftmost place that is recognised. -/
def findValue? (recognise : Recogniser α) (s : Text) : Option α :=
  (find? recognise s).map (·.value)

/-- Whether some place is recognised. -/
def occurs (recognise : Recogniser α) (s : Text) : Bool := (find? recognise s).isSome

/-- The text with the leftmost recognised place replaced by the recognised value. -/
def replaceFirst? (recognise : Recogniser Text) (s : Text) : Option Text :=
  (find? recognise s).map fun found => found.before ++ found.value ++ found.rest

/-- The part of a text before its final part `rest`. -/
def consumed (s rest : Text) : Text := s.take (s.length - rest.length)

/-- The text from a place on with every recognised place replaced by the recognised value, from
left to right; a recogniser that takes nothing is not counted. -/
def replaceFrom (recognise : Recogniser Text) : (before s : Text) → Text
  | _, [] => []
  | before, c :: cs =>
      match recognise before (c :: cs) with
      | some (value, rest) =>
          if rest.length ≤ cs.length then
            value ++ replaceFrom recognise ((consumed (c :: cs) rest).reverse ++ before) rest
          else
            c :: replaceFrom recognise (c :: before) cs
      | none => c :: replaceFrom recognise (c :: before) cs
termination_by _ s => s.length

/-- The text with every recognised place replaced. -/
def replaceAll (recognise : Recogniser Text) (s : Text) : Text := replaceFrom recognise [] s

/-- The text after `word`, at a place where a word may start. -/
def afterWordStart? (word before s : Text) : Option Text :=
  if isBoundary before.head? s then after? word s else none

/-- The text after `word`, where the word ends. -/
def afterWordEnd? (word s : Text) : Option Text :=
  (after? word s).filter fun rest => isBoundary word.getLast? rest

/-- The text after `word` standing as a whole word. -/
def afterWord? (word before s : Text) : Option Text :=
  if isBoundary before.head? s then afterWordEnd? word s else none

/-- The whole word `word`, to be replaced by `replacement`. -/
def wordAs (word replacement : Text) : Recogniser Text := fun before s =>
  (afterWord? word before s).map (replacement, ·)

/-- The place of a whole word that occurs only once. -/
def soleWord? (word s : Text) : Option (Found Text) :=
  (find? (wordAs word word) s).filter fun found =>
    (search (wordAs word word) (word.reverse ++ found.before.reverse) found.rest).isNone

/-- A maximal non-empty run of accepted characters. -/
def run? (accept : Char → Bool) (s : Text) : Option (Text × Text) :=
  match s.takeWhile accept with
  | [] => none
  | taken => some (taken, s.dropWhile accept)

/-- A non-empty run without delimiters between two of them. -/
def enclosed? (delimits : Char → Bool) : Text → Option (Text × Text)
  | [] => none
  | c :: cs =>
      if delimits c then
        match run? (fun c => !delimits c) cs with
        | some (body, _ :: rest) => some (body, rest)
        | _ => none
      else
        none

/-- A non-empty run between backticks. -/
def backticked? (s : Text) : Option (Text × Text) := enclosed? (· = '\x60') s

/-- The text after a brace group without inner braces closing it. -/
def afterBraces? (s : Text) : Option Text := do
  let inner ← after? ['{'] s
  after? ['}'] (inner.dropWhile (· ≠ '}'))

end Text

end LintRepair
