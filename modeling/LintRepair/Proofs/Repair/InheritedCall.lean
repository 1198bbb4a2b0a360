import Mathlib.Data.Option.Basic
import LintRepair.Proofs.Provider
import LintRepair.Proofs.Text.Blank
import LintRepair.Proofs.Text.Replace
import LintRepair.Proofs.Text.Word
import LintRepair.Repair.Expression

/-!
# Calls of an inherited method

A call of `hasOwnProperty` is rewritten where its receiver, a chain of accesses or one bracketed
text, does not stand behind a dot.  The search from the left never begins inside a chain, so a chain
is only taken as a whole.  What stands in front of a bracket is not looked at: behind an operand the
bracket is an index of that operand, which is left behind.
-/

namespace LintRepair

namespace Expression

open Text

/-- An access behind an operand: a dot and a name, or a bracketed index. -/
inductive IsAccess : Text → Prop
  | member {c : Char} {name : Text} (starts : isNameStart c) (named : ∀ d ∈ name, isNamePart d) :
      IsAccess ('.' :: c :: name)
  | index {inner : Text} (nonempty : inner ≠ []) (closed : ']' ∉ inner) :
      IsAccess ('[' :: (inner ++ [']']))

/-- A name with accesses behind it, or one bracketed text. -/
inductive IsReceiver : Text → Prop
  | chain {c : Char} {name : Text} {accesses : List Text} (starts : isNameStart c)
      (named : ∀ d ∈ name, isNamePart d) (each : ∀ access ∈ accesses, IsAccess access) :
      IsReceiver (c :: (name ++ accesses.flatten))
  | bracketed {inner : Text} (nonempty : inner ≠ []) (closed : ']' ∉ inner) :
      IsReceiver ('[' :: (inner ++ [']']))

/-- What stands behind the receiver in a call, blanks allowed between its parts. -/
def IsCall (argument call : Text) : Prop :=
  ∃ lead gap tail inner,
    call = lead ++ ("." ++ (gap ++ ("hasOwnProperty" ++ (tail ++ ("(" ++ (inner ++ ")")))))) ∧
    (∀ c ∈ lead ++ (gap ++ tail), isBlank c) ∧ ')' ∉ inner ∧ argument? inner = some argument

/-- A call on a receiver that stands neither behind a dot nor inside a name is rewritten. -/
structure RewritesAt (receiver front old new back : Text) : Prop where
  isReceiver : IsReceiver receiver
  undotted : (trimEnd front).getLast? ≠ some '.'
  outside : ∀ c ∈ front.reverse.takeWhile isNamePart, isNameStart c = false
  parts : ∃ argument call, IsCall argument call ∧ old = receiver ++ call ∧
    new = "Object.hasOwn(" ++ receiver ++ ", " ++ argument ++ ")"

theorem isNamePart_of_isNameStart {c : Char} (starts : isNameStart c) : isNamePart c := by
  simp only [isNameStart, isNamePart, Char.isAlphanum, Bool.or_eq_true] at *
  grind

theorem isDigit_of_isNamePart {c : Char} (part : isNamePart c) (no_start : isNameStart c = false) :
    c.isDigit := by
  simp only [isNameStart, isNamePart, Char.isAlphanum, Bool.or_eq_true, Bool.or_eq_false_iff] at *
  grind

theorem not_mem_takeWhile_ne {d : Char} {s : Text} : d ∉ s.takeWhile (· ≠ d) := by
  intro member
  simpa using List.mem_takeWhile_imp member

section Access

variable {s taken rest : Text}

theorem exists_of_access? (found : access? s = some (taken, rest)) :
    s = taken ++ rest ∧ IsAccess taken := by
  unfold access? at found
  split at found
  · rename_i c rest
    split at found
    · rename_i starts
      obtain ⟨rfl, rfl⟩ := Prod.mk.inj (Option.some.inj found)
      exact ⟨by simp, .member starts fun d member => List.mem_takeWhile_imp member⟩
    · contradiction
  · rename_i inner
    split at found
    · rename_i index rest run_found
      obtain ⟨rfl, rfl⟩ := Prod.mk.inj (Option.some.inj found)
      obtain ⟨nonempty, rfl, rest_eq⟩ := run?_eq_some_iff.mp run_found
      refine ⟨?_, .index nonempty not_mem_takeWhile_ne⟩
      conv =>
        lhs
        rw [← List.takeWhile_append_dropWhile (p := (· ≠ ']')) (l := inner), ← rest_eq]
      simp
    · contradiction
  · contradiction

theorem mem_accesses_self (s : Text) : ([], s) ∈ accesses s := by
  unfold accesses
  split
  · simp
  · split <;> simp

theorem IsAccess.length_pos (isAccess : IsAccess taken) : 0 < taken.length := by
  cases isAccess <;> simp

theorem accesses_of_access? (found : access? s = some (taken, rest)) :
    accesses s =
      (accesses rest).map (fun (more, left) => (taken ++ more, left)) ++ [([], s)] := by
  obtain ⟨parts, isAccess⟩ := exists_of_access? found
  have shorter : rest.length < s.length := by
    have some_taken := isAccess.length_pos
    rw [parts, List.length_append]
    omega
  rw [accesses]
  simp only [found, if_pos shorter]

theorem mem_accesses_of_access? (found : access? s = some (taken, rest)) :
    (taken, rest) ∈ accesses s := by
  rw [accesses_of_access? found]
  refine List.mem_append_left _ (List.mem_map.mpr ⟨([], rest), mem_accesses_self rest, ?_⟩)
  exact Prod.ext (List.append_nil taken) rfl

theorem exists_of_mem_accesses (member : (taken, rest) ∈ accesses s) :
    s = taken ++ rest ∧
      ∃ each : List Text, taken = each.flatten ∧ ∀ access ∈ each, IsAccess access := by
  fun_induction accesses s generalizing taken with
  | case1 s none_found =>
      obtain ⟨rfl, rfl⟩ := Prod.mk.inj (List.mem_singleton.mp member)
      exact ⟨rfl, [], rfl, by simp⟩
  | case2 s first left found shorter ih =>
      rcases List.mem_append.mp member with further | last
      · obtain ⟨⟨more, behind⟩, more_mem, given⟩ := List.mem_map.mp further
        obtain ⟨rfl, rfl⟩ := Prod.mk.inj given
        obtain ⟨rfl, isAccess⟩ := exists_of_access? found
        obtain ⟨rfl, each, rfl, isAccesses⟩ := ih more_mem
        refine ⟨by simp, first :: each, by simp, ?_⟩
        exact List.forall_mem_cons.mpr ⟨isAccess, isAccesses⟩
      · obtain ⟨rfl, rfl⟩ := Prod.mk.inj (List.mem_singleton.mp last)
        exact ⟨rfl, [], rfl, by simp⟩
  | case3 s first left found longer =>
      obtain ⟨rfl, rfl⟩ := Prod.mk.inj (List.mem_singleton.mp member)
      exact ⟨rfl, [], rfl, by simp⟩

end Access

section Receiver

variable {s receiver behind rest : Text}

theorem receivers_of_isNameStart {c : Char} (starts : isNameStart c) (s : Text) :
    receivers (c :: s) = (accesses (s.dropWhile isNamePart)).map fun (more, rest) =>
      (c :: s.takeWhile isNamePart ++ more, rest) := by
  simp [receivers, starts]

/-- A receiver starts with a name, behind which it takes some accesses, or it is one bracketed
text. -/
theorem receivers_cases (member : (receiver, behind) ∈ receivers s) :
    (∃ c later more, s = c :: later ∧ isNameStart c ∧
      (more, behind) ∈ accesses (later.dropWhile isNamePart) ∧
      receiver = c :: later.takeWhile isNamePart ++ more) ∨
    ∃ later, s = '[' :: later ∧ access? s = some (receiver, behind) := by
  cases s with
  | nil => contradiction
  | cons c later =>
      by_cases starts : isNameStart c
      · rw [receivers_of_isNameStart starts] at member
        obtain ⟨⟨more, left⟩, more_mem, given⟩ := List.mem_map.mp member
        obtain ⟨rfl, rfl⟩ := Prod.mk.inj given
        exact .inl ⟨c, later, more, rfl, starts, more_mem, rfl⟩
      · by_cases opens : c = '['
        · subst opens
          simp only [receivers, starts, Bool.false_eq_true, if_false, if_true,
            Option.mem_toList] at member
          exact .inr ⟨later, rfl, member⟩
        · simp [receivers, starts, opens] at member

theorem exists_of_mem_receivers (member : (receiver, behind) ∈ receivers s) :
    s = receiver ++ behind ∧ IsReceiver receiver := by
  rcases receivers_cases member with
    ⟨c, later, more, rfl, starts, more_mem, rfl⟩ | ⟨later, rfl, found⟩
  · obtain ⟨parts, each, rfl, isAccesses⟩ := exists_of_mem_accesses more_mem
    constructor
    · conv =>
        lhs
        rw [← List.takeWhile_append_dropWhile (p := isNamePart) (l := later), parts]
      simp
    · exact .chain starts (fun d d_mem => List.mem_takeWhile_imp d_mem) isAccesses
  · obtain ⟨parts, isAccess⟩ := exists_of_access? found
    refine ⟨parts, ?_⟩
    cases isAccess with
    | member => simp at parts
    | index nonempty closed => exact .bracketed nonempty closed

/-- Behind the characters of a name at its start, what a receiver takes is accesses. -/
theorem exists_mem_accesses (member : (receiver, behind) ∈ receivers s) :
    ∃ more, (more, behind) ∈ accesses (s.dropWhile isNamePart) := by
  rcases receivers_cases member with
    ⟨c, later, more, rfl, starts, more_mem, -⟩ | ⟨later, rfl, found⟩
  · rw [List.dropWhile_cons_of_pos (isNamePart_of_isNameStart starts)]
    exact ⟨more, more_mem⟩
  · rw [List.dropWhile_cons_of_neg (by decide)]
    exact ⟨receiver, mem_accesses_of_access? found⟩

theorem exists_of_ownPropertyCall? {argument : Text}
    (found : ownPropertyCall? behind = some (argument, rest)) :
    ∃ call, behind = call ++ rest ∧ IsCall argument call := by
  simp only [ownPropertyCall?, Option.bind_eq_bind, Option.bind_eq_some_iff] at found
  obtain ⟨behind_dot, dot_found, behind_name, name_found, inside, paren_found, closed⟩ := found
  have dot_eq := after?_eq_some_iff.mp dot_found
  have name_eq := after?_eq_some_iff.mp name_found
  have paren_eq := after?_eq_some_iff.mp paren_found
  split at closed
  · contradiction
  · rename_i c left dropped
    obtain ⟨value, argument_eq, given⟩ := Option.bind_eq_some_iff.mp closed
    obtain ⟨rfl, rfl⟩ := Prod.mk.inj (Option.some.inj given)
    have stop := @refused_of_mem_dropWhile (· ≠ ')') inside c (by rw [dropped]; rfl)
    obtain rfl : c = ')' := by simpa using stop
    have inside_eq : inside.takeWhile (· ≠ ')') ++ (")" ++ left) = inside := by
      conv =>
        rhs
        rw [← List.takeWhile_append_dropWhile (p := (· ≠ ')')) (l := inside), dropped]
      rfl
    refine ⟨_, ?_, indentation behind, indentation behind_dot, indentation behind_name,
      inside.takeWhile (· ≠ ')'), rfl, ?_, not_mem_takeWhile_ne, argument_eq⟩
    · calc
        behind = indentation behind ++ ("." ++ behind_dot) := by
          rw [← dot_eq, indentation_append_trimStart]
        _ = indentation behind ++ ("." ++ (indentation behind_dot ++
              ("hasOwnProperty" ++ behind_name))) := by
          rw [← name_eq, indentation_append_trimStart]
        _ = indentation behind ++ ("." ++ (indentation behind_dot ++ ("hasOwnProperty" ++
              (indentation behind_name ++ ("(" ++ inside))))) := by
          rw [← paren_eq, indentation_append_trimStart]
        _ = _ := by
          simp only [List.append_assoc, inside_eq]
    · simp only [List.forall_mem_append]
      exact ⟨fun _ => blank_of_mem_indentation, fun _ => blank_of_mem_indentation,
        fun _ => blank_of_mem_indentation⟩

theorem IsCall.exists_concat {argument call : Text} (isCall : IsCall argument call) :
    ∃ front, call = front ++ [')'] := by
  obtain ⟨lead, gap, tail, inner, rfl, -⟩ := isCall
  exact ⟨lead ++ ("." ++ (gap ++ ("hasOwnProperty" ++ (tail ++ ("(" ++ inner))))), by simp⟩

end Receiver

section Place

variable {before s rest value : Text}

theorem ownProperty_eq_none (refused : ownProperty before s = none) :
    ∀ receiver behind, (receiver, behind) ∈ receivers s → ownPropertyCall? behind = none := by
  intro receiver behind member
  have none_given := List.findSome?_eq_none_iff.mp refused (receiver, behind) member
  rw [Option.eq_none_iff_forall_ne_some]
  rintro ⟨argument, left⟩ found
  simp only [found, Option.bind_eq_bind, Option.bind_some] at none_given
  split at none_given <;> contradiction

theorem exists_of_ownProperty (recognised : ownProperty before s = some (value, rest)) :
    ∃ receiver behind argument, (receiver, behind) ∈ receivers s ∧
      ownPropertyCall? behind = some (argument, rest) ∧
      value = if (before.dropWhile isBlank).head? = some '.' then consumed s rest
        else "Object.hasOwn(" ++ receiver ++ ", " ++ argument ++ ")" := by
  obtain ⟨⟨receiver, behind⟩, member, given⟩ := List.exists_of_findSome?_eq_some recognised
  obtain ⟨⟨argument, left⟩, found, given⟩ := Option.bind_eq_some_iff.mp given
  refine ⟨receiver, behind, argument, member, ?_⟩
  dsimp only at given
  split at given
  · rename_i dotted
    obtain ⟨rfl, rfl⟩ := Prod.mk.inj (Option.some.inj given)
    exact ⟨found, (if_pos dotted).symm⟩
  · rename_i undotted
    obtain ⟨rfl, rfl⟩ := Prod.mk.inj (Option.some.inj given)
    exact ⟨found, (if_neg undotted).symm⟩

/-- At a place inside a name, behind a character that may start one, no call follows behind the rest
of the name and some accesses. -/
def IsFresh (before s : Text) : Prop :=
  (∃ c ∈ before.takeWhile isNamePart, isNameStart c) →
    ∀ more behind, (more, behind) ∈ accesses (s.dropWhile isNamePart) →
      ownPropertyCall? behind = none

theorem isFresh_cons {c : Char} (fresh : IsFresh before (c :: s))
    (refused : ownProperty before (c :: s) = none) : IsFresh (c :: before) s := by
  rintro ⟨d, d_mem, starts⟩ more behind member
  have part : isNamePart c := by
    rw [← Bool.not_eq_false]
    intro no_part
    simp [no_part] at d_mem
  rw [List.takeWhile_cons_of_pos part] at d_mem
  rcases List.mem_cons.mp d_mem with rfl | earlier
  · refine ownProperty_eq_none refused (d :: s.takeWhile isNamePart ++ more) behind ?_
    rw [receivers_of_isNameStart starts]
    exact List.mem_map.mpr ⟨(more, behind), member, rfl⟩
  · refine fresh ⟨d, earlier, starts⟩ more behind ?_
    rw [List.dropWhile_cons_of_pos part]
    exact member

/-- Where a call is recognised, no name reaches up to the place. -/
theorem outside_of_isFresh {receiver behind argument : Text} (fresh : IsFresh before s)
    (member : (receiver, behind) ∈ receivers s)
    (found : ownPropertyCall? behind = some (argument, rest)) :
    ∀ c ∈ before.takeWhile isNamePart, isNameStart c = false := by
  intro c c_mem
  rw [← Bool.not_eq_true]
  intro starts
  have refused := fresh ⟨c, c_mem, starts⟩
  obtain ⟨more, more_mem⟩ := exists_mem_accesses member
  rw [refused more behind more_mem] at found
  contradiction

theorem carries_ownProperty :
    ownProperty.Carries IsFresh fun front old new back =>
      ∃ receiver, RewritesAt receiver front old new back := by
  refine ⟨fun before c s => isFresh_cons, ?_⟩
  intro before s value rest fresh recognised
  obtain ⟨receiver, behind, argument, member, found, rfl⟩ := exists_of_ownProperty recognised
  obtain ⟨rfl, isReceiver⟩ := exists_of_mem_receivers member
  obtain ⟨call, rfl, isCall⟩ := exists_of_ownPropertyCall? found
  obtain ⟨call_front, call_eq⟩ := isCall.exists_concat
  refine ⟨receiver ++ call, ?_, by simp, ?_, ?_⟩
  · simp [call_eq]
  · rintro ⟨c, c_mem, -⟩
    have closing : isNamePart ')' = false := by decide
    simp [call_eq, closing] at c_mem
  · split
    · left
      rw [← List.append_assoc, consumed_append]
    · rename_i undotted
      refine .inr ⟨receiver, isReceiver, ?_, ?_, argument, call, isCall, rfl, rfl⟩
      · simpa [trimEnd] using undotted
      · rw [List.reverse_reverse]
        exact outside_of_isFresh fresh member found

end Place

/-- Behind such a character a bracket is an index of what ends there. -/
def EndsOperand (c : Char) : Prop :=
  c = ')' ∨ c = ']' ∨ Nesting.isQuote c ∨ isWord c ∨ c = '$'

/-- A receiver is no part of an expression that begins before it: a bracket does not stand behind
the end of an operand, and a name not behind a dot. -/
structure StartsExpression (front receiver : Text) : Prop where
  bracket : receiver.head? = some '[' → ∀ c ∈ front.getLast?, ¬ EndsOperand c
  name : receiver.head? ≠ some '[' → (trimEnd front).getLast? ≠ some '.'

/-- A bracketed receiver stands behind the end of an operand that is no name of ASCII letters. -/
def IsIndex (front receiver : Text) : Prop :=
  receiver.head? = some '[' ∧ ∃ c ∈ front.getLast?,
    c = ')' ∨ c = ']' ∨ Nesting.isQuote c ∨ c.isDigit ∨ isWord c ∧ isNamePart c = false

/-- A rewritten call is one on the whole receiver unless the receiver is an index. -/
theorem RewritesAt.startsExpression_iff {receiver front old new back : Text}
    (rewrites : RewritesAt receiver front old new back) :
    StartsExpression front receiver ↔ ¬ IsIndex front receiver := by
  constructor
  · rintro starts ⟨bracketed, c, last, ends⟩
    refine starts.bracket bracketed c last ?_
    rcases ends with closing | closing | quote | digit | ⟨word, -⟩
    · exact .inl closing
    · exact .inr (.inl closing)
    · exact .inr (.inr (.inl quote))
    · exact .inr (.inr (.inr (.inl (isWord_of_isDigit digit))))
    · exact .inr (.inr (.inr (.inl word)))
  · intro not_index
    refine ⟨fun bracketed c last ends => not_index ⟨bracketed, c, last, ?_⟩,
      fun _ => rewrites.undotted⟩
    by_cases part : isNamePart c
    · -- The name would reach up to the bracket, so it has digits only.
      have no_start : isNameStart c = false := by
        refine rewrites.outside c ?_
        obtain ⟨before, rfl⟩ := List.getLast?_eq_some_iff.mp last
        simp [part]
      exact .inr (.inr (.inr (.inl (isDigit_of_isNamePart part no_start))))
    · rcases ends with closing | closing | quote | word | rfl
      · exact .inl closing
      · exact .inr (.inl closing)
      · exact .inr (.inr (.inl quote))
      · exact .inr (.inr (.inr (.inr ⟨word, Bool.eq_false_iff.mpr part⟩)))
      · exact absurd (by decide) part

end Expression

namespace Repair

open Text Expression

/-- What the fix does to a line is done by rewriting calls of the inherited method; all else is
kept.  The receiver of a rewritten call starts an expression exactly if it is no bracket behind the
end of an operand. -/
theorem inherited_calls_rewritten (site : Site) :
    (∃ line,
      Exchanged (fun front old new back => ∃ receiver, RewritesAt receiver front old new back) []
        site.lineText line ∧
      prototypeCall site =
        if line = site.lineText then none
        else some (site.replaceLine "Use `Object.hasOwn()` instead" line)) ∧
    ∀ receiver front old new back, RewritesAt receiver front old new back →
      (StartsExpression front receiver ↔ ¬ IsIndex front receiver) := by
  refine ⟨⟨replaceAll ownProperty site.lineText, ?_, ?_⟩,
    fun receiver front old new back => RewritesAt.startsExpression_iff⟩
  · exact exchanged_replaceAll carries_ownProperty fun ⟨c, member, _⟩ =>
      absurd member List.not_mem_nil
  · simp only [prototypeCall, guard]
    split <;> simp_all

/-- A report about the first line of a text. -/
def callSite (text : Text) : Site where
  diagnostic := ⟨"no-prototype-builtins", "message", .onLine 0 0 1, .error, none, none,
    Diagnostic.lintSource⟩
  document := .ofText text
  settings := .standard

theorem chain_rewritten_beside_continued_one :
    prototypeCall (callSite "!a.b[i].hasOwnProperty( k ) && f() .a.hasOwnProperty(k);") =
      some ((callSite "!a.b[i].hasOwnProperty( k ) && f() .a.hasOwnProperty(k);").replaceLine
        "Use `Object.hasOwn()` instead" "!Object.hasOwn(a.b[i], k) && f() .a.hasOwnProperty(k);") ∧
    Exchanged (fun front old new back => ∃ receiver, RewritesAt receiver front old new back) []
      "!a.b[i].hasOwnProperty( k ) && f() .a.hasOwnProperty(k);"
      "!Object.hasOwn(a.b[i], k) && f() .a.hasOwnProperty(k);" := by
  have offered :
      prototypeCall (callSite "!a.b[i].hasOwnProperty( k ) && f() .a.hasOwnProperty(k);") =
        some ((callSite "!a.b[i].hasOwnProperty( k ) && f() .a.hasOwnProperty(k);").replaceLine
          "Use `Object.hasOwn()` instead"
          "!Object.hasOwn(a.b[i], k) && f() .a.hasOwnProperty(k);") := by
    decide +kernel
  obtain ⟨⟨line, exchanged, given⟩, -⟩ :=
    inherited_calls_rewritten (callSite "!a.b[i].hasOwnProperty( k ) && f() .a.hasOwnProperty(k);")
  have covered :
      (callSite "!a.b[i].hasOwnProperty( k ) && f() .a.hasOwnProperty(k);").lineText =
        "!a.b[i].hasOwnProperty( k ) && f() .a.hasOwnProperty(k);" := by
    decide +kernel
  rw [offered] at given
  split at given
  · exact absurd given (Option.some_ne_none _)
  · obtain rfl := Site.replaceLine_inj.mp (Option.some.inj given)
    rw [covered] at exchanged
    exact ⟨offered, exchanged⟩

/-- The index of the result of a call is taken for an array. -/
theorem call_before_index_left_behind :
    prototypeCall (callSite "f()[0].hasOwnProperty(k);") =
      some ((callSite "f()[0].hasOwnProperty(k);").replaceLine "Use `Object.hasOwn()` instead"
        "f()Object.hasOwn([0], k);") ∧
    ¬ StartsExpression "f()" "[0]" := by
  refine ⟨by decide +kernel, fun starts => ?_⟩
  exact starts.bracket rfl ')' rfl (.inl rfl)

end Repair

end LintRepair
