import LintRepair.Text.Search

/-!
# Hints

Lint messages and hints say in fixed phrases what would help.  Each function here reads one such
phrase; names and statements are given in backticks.
-/

namespace LintRepair

namespace Hint

/-- A letter compared without case; the long `s` counts as an `s`. -/
def foldCase (c : Char) : Char := if c = 'ſ' then 's' else c.toLower

/-- The text after a word in any case. -/
def afterAnyCase? : (word s : Text) → Option Text
  | [], s => some s
  | _ :: _, [] => none
  | w :: ws, c :: cs => if w = foldCase c then afterAnyCase? ws cs else none

/-- The phrase "use X instead" in any case, with X in backticks or without blanks. -/
def useInsteadPhrase : Text.Recogniser Text := fun before s => do
  guard (Text.isBoundary before.head? s)
  let s ← afterAnyCase? "use" s
  let s ← Text.afterBlanks? s
  let (value, s) ← Text.backticked? s <|> Text.run? (fun c => c ≠ '\x60' && !Text.isBlank c) s
  let s ← Text.afterBlanks? s
  let s ← afterAnyCase? "instead" s
  return (value, s)

/-- What a hint says to use instead. -/
def replacement? (hint : Text) : Option Text := Text.findValue? useInsteadPhrase hint

/-- The phrase "rename X to Y" or "renaming X to Y", both names in backticks. -/
def renamePhrase : Text.Recogniser (Text × Text) := fun _ s => do
  let s ← Text.after? "Renam" s <|> Text.after? "renam" s
  let s ← Text.after? "e " s <|> Text.after? "ing " s
  let (old, s) ← Text.backticked? s
  let s ← Text.after? " to " s
  let (new, s) ← Text.backticked? s
  return ((old, new), s)

/-- The old and the new name of a renaming hint. -/
def rename? (hint : Text) : Option (Text × Text) := Text.findValue? renamePhrase hint

/-- The phrase "Add X" with X in backticks. -/
def addPhrase : Text.Recogniser Text := fun _ s => do
  Text.backticked? (← Text.after? "Add " s)

/-- The import statement that a hint says to add. -/
def importStatement? (hint : Text) : Option Text :=
  (Text.findValue? addPhrase hint).filter fun statement =>
    Text.startsWith (Text.trimStart statement) "import"

/-- The phrase "add a `type` keyword". -/
def typeKeywordPhrase : Text.Recogniser Unit := fun _ s => do
  let s ← Text.after? "Add" s <|> Text.after? "add" s
  let s ← Text.afterBlanks? s
  let s := ((Text.after? "a" s).bind Text.afterBlanks?).getD s
  let s ← Text.after? "`type`" s
  let s ← Text.afterBlanks? s
  let s ← Text.after? "keyword" s
  return ((), s)

/-- Whether a hint asks for a `type` keyword. -/
def asksForTypeKeyword (hint : Text) : Bool := Text.occurs typeKeywordPhrase hint

/-- The phrase "`import` to `import type`". -/
def typeImportPhrase : Text.Recogniser Unit := fun _ s => do
  let s ← Text.after? "`import`" s
  let s ← Text.afterBlanks? s
  let s ← Text.after? "to" s
  let s ← Text.afterBlanks? s
  let s ← Text.after? "`import" s
  let s ← Text.afterBlanks? s
  let s ← Text.after? "type`" s
  return ((), s)

/-- Whether a hint asks to import types only. -/
def asksForTypeImport (hint : Text) : Bool := Text.occurs typeImportPhrase hint

/-- The first non-empty text between quotes or backticks of any kind. -/
def quotedCode? (s : Text) : Option Text :=
  Text.findValue?
    (fun _ s => Text.enclosed? (fun c => c = '"' || c = '\'' || c = '\x60') s) s

/-- The phrase "unknown rule X" or "unknown rule for code X", with X in quotes. -/
def unknownRulePhrase : Text.Recogniser Text := fun _ s => do
  let s ← Text.after? "Unknown rule " s <|> Text.after? "unknown rule " s
  let s := (Text.after? "for code " s).getD s
  Text.enclosed? (fun c => c = '"' || c = '\'' || c = '\x60') s

/-- The rule code that a message does not know. -/
def unknownCode? (message : Text) : Option Text := Text.findValue? unknownRulePhrase message

/-- Whether a hint says that a `super()` call does not belong. -/
def removesSuperCall (hint : Text) : Bool := Text.containsPiece hint "Remove call to super()"

/-- The hint carried by a note that starts with one of the two marks. -/
def ofNote? (note : Text) : Option Text :=
  Text.after? "Hint: " note <|> Text.after? "💡 " note

/-- The hint carried by the first note that has one. -/
def ofNotes? (notes : List Text) : Option Text := notes.findSome? ofNote?

end Hint

end LintRepair
