import LintRepair.Hint
import LintRepair.Import
import LintRepair.Repair.Annotation
import LintRepair.Text.Nesting

/-!
# Repairs of imports

Adding an import, marking an import as one of types, and correcting the names, specifiers and
attributes of imports and reference comments.
-/

namespace LintRepair

namespace ImportLine

/-- Whether a character may stand in a name under a renaming. -/
def isRenamePart (c : Char) : Bool := Text.isWord c || c = '$'

/-- The longest part of a run of characters that ends at a word boundary, with what follows it. -/
def boundedName? (run rest : Text) : Option (Text × Text) :=
  match run with
  | [] => none
  | c :: cs =>
      match boundedName? cs rest with
      | some (name, left) => some (c :: name, left)
      | none => if Text.isBoundary (some c) (cs ++ rest) then some ([c], cs ++ rest) else none

/-- A name at a word boundary, a separator and a second name that ends at a word boundary.  Equal
names are collapsed into one, any others kept. -/
def renamedPair (separator? : Text → Option Text) : Text.Recogniser Text := fun before s => do
  guard (Text.isBoundary before.head? s)
  let (name, behind) ← Text.run? isRenamePart s
  let behind ← separator? behind
  let (other, rest) ←
    boundedName? (behind.takeWhile isRenamePart) (behind.dropWhile isRenamePart)
  return (if name = other then name else Text.consumed s rest, rest)

/-- The separator `as` with blanks around it. -/
def afterAs? (s : Text) : Option Text := do
  Text.afterBlanks? (← Text.after? "as" (← Text.afterBlanks? s))

/-- The separator `:` with blanks behind it. -/
def afterColon? (s : Text) : Option Text := (Text.after? ":" s).map Text.trimStart

/-- A line with every name that is renamed to itself written once. -/
def collapseRenames (line : Text) : Text :=
  Text.replaceAll (renamedPair afterColon?) (Text.replaceAll (renamedPair afterAs?) line)

/-- Blanks, `assert` and a brace group, given as blanks and group. -/
def assertClause? (s : Text) : Option (Text × Text) := do
  let group ← Text.after? "assert" (← Text.afterBlanks? s)
  let rest ← Text.afterBraces? (Text.trimStart group)
  return (Text.consumed group rest, rest)

/-- The shortest non-empty text without semicolons before an assert clause, with the group of the
clause and the text behind it. -/
def beforeAssert? : Text → Option (Text × Text × Text)
  | [] => none
  | c :: cs =>
      if c = ';' then none
      else
        match assertClause? cs with
        | some (group, rest) => some ([c], group, rest)
        | none => (beforeAssert? cs).map fun (body, group, rest) => (c :: body, group, rest)

/-- An import with an assert clause, the clause given by `with` instead.  Of the blanks behind the
keyword as many as possible are passed over before the imported names. -/
def assertImport : Text.Recogniser Text := fun before s => do
  let behind ← Text.afterWordStart? "import" before s
  let blanks := Text.indentation behind
  (List.range blanks.length).reverse.findSome? fun kept => do
    let (body, group, rest) ← beforeAssert? (behind.drop (kept + 1))
    return ("import" ++ behind.take (kept + 1) ++ body ++ " with" ++ group, rest)

/-- An import line turned into an import of types. -/
def typeImport? (line : Text) : Option Text := do
  let rest ← Text.after? "import" (Text.trimStart line)
  guard (rest.head?.any Text.isBlank)
  return Text.indentation line ++ "import type" ++ rest

/-- The parts of a reference comment: up to its attribute name, the name, and what follows. -/
def referenceAttribute : Text.Recogniser (Text × Text) := fun _ s => do
  let behind ← Text.afterBlanks? (← Text.after? "<reference" s)
  let (name, rest) ← Text.run? (fun c => c.isAlpha || c = '-') behind
  guard (Text.startsWith (Text.trimStart rest) "=")
  return ((Text.consumed s behind, name), rest)

/-- The attributes that a reference comment may have. -/
def referenceAttributes : List Text := ["types", "path", "lib", "no-default-lib"]

end ImportLine

namespace Repair

/-- The fix that adds the import named by a hint, under the hint as its title. -/
def hintedImport (site : Site) (hint : Text) : Option Fix :=
  (Hint.importStatement? hint).map fun statement =>
    .addImport site.diagnostic site.document statement (some hint)

/-- For `no-process-global`: the import that the hint names. -/
def processGlobal (site : Site) : Option Fix := site.hint?.bind (hintedImport site)

/-- For `no-node-globals`: the import that the hint names, and the replacement that it names. -/
def nodeGlobal (site : Site) : List Fix :=
  match site.hint? with
  | none => []
  | some hint => (hintedImport site hint).toList ++ (useInstead hint site.diagnostic).toList

/-- For `no-import-assertions`: assert clauses on the line become `with` clauses. -/
def importAssertion (site : Site) : Option Fix := do
  guard (Text.occurs ImportLine.assertImport site.lineText)
  return site.replaceLine (site.hint?.getD "Replace \"assert\" with \"with\" in import")
    (Text.replaceAll ImportLine.assertImport site.lineText)

/-- For `no-sloppy-imports`: an extension before the closing quote.  It breaks down when there is no
column before the end of the range. -/
def sloppyImport (site : Site) : Option (List Fix) :=
  match site.text?.filter fun text => 2 ≤ text.length && text.getLast?.any Nesting.isQuote with
  | none => some []
  | some _ => do
      let stop := site.range.stop
      guard (0 < stop.column)
      return [site.fix "Add .ts extension to import"
        (.insert ⟨stop.line, stop.column - 1⟩ ".ts")]

/-- For `no-useless-rename`: names renamed to themselves are written once. -/
def uselessRename (site : Site) : Option Fix := do
  let line := ImportLine.collapseRenames site.lineText
  guard (line ≠ site.lineText)
  return site.replaceLine "Remove useless rename" line

/-- For `verbatim-module-syntax`: a `type` keyword for the name, or a type import of the line, as
the hint says. -/
def typeOnlyImport (site : Site) : List Fix :=
  match site.hint? with
  | none => []
  | some hint =>
      let keyword :=
        if Hint.asksForTypeKeyword hint then
          [site.fix "Add `type` keyword" (.insert site.range.start "type ")]
        else []
      let declaration := do
        guard (Hint.asksForTypeImport hint)
        return site.replaceLine "Change `import` to `import type`"
          (← ImportLine.typeImport? site.lineText)
      keyword ++ declaration.toList

/-- For `no-invalid-triple-slash-reference`: each valid attribute in place of the one given. -/
def referenceComment (site : Site) : List Fix :=
  match site.text?.bind (Text.find? ImportLine.referenceAttribute) with
  | none => []
  | some found =>
      let (lead, name) := found.value
      (ImportLine.referenceAttributes.filter (· ≠ name)).map fun valid =>
        site.replaceRange ("Change to `<reference " ++ valid ++ "=\"...\" />`")
          (found.before ++ lead ++ valid ++ found.rest)

end Repair

end LintRepair
