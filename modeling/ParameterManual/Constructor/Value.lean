import ParameterManual.Source.Argument
import ParameterManual.Translation

/-!
# Argument values

An argument of a statement is a symbol, which stands for its display text, a
literal, which stands for its contents, or other text, which stands for
itself. A numeric cast around one argument stands for that argument.
-/

set_option autoImplicit false

namespace ParameterManual.Constructor

open Source

def booleanOf? (t : Text) : Option Bool :=
  if t.trim = "true".toList then some true
  else if t.trim = "false".toList then some false
  else none

/-- The member that an argument such as a reference to it names. -/
def memberName (t : Text) : Text := Text.trim (t.trim.dropWhile (· == '&'))

/-- Whether every parenthesis of the text closes within it, from a depth. -/
def balancedFrom : (depth : Nat) → Text → Bool
  | depth, [] => depth == 0
  | depth, c :: t =>
    if c = '(' then balancedFrom (depth + 1) t
    else if c = ')' then
      match depth with
      | 0 => false
      | depth + 1 => balancedFrom depth t
    else balancedFrom depth t

def numericTypes : List Text := ["Double".toList, "double".toList, "unsigned".toList]

/-- The argument of a cast to the given type. -/
def castArgument? (type t : Text) : Option Text := do
  let after ← Text.afterLead? type t
  let opened ← Text.afterLead? ['('] after.trimStart
  let inner ← Text.beforeTail? [')'] opened
  if balancedFrom 0 inner && (splitArguments inner).length == 1 then some inner.trim else none

def withoutCast (t : Text) : Text := (numericTypes.findSome? (castArgument? · t)).getD t

def literalText (t : Text) : Text := Markup.escape (unquote t)

/-- The symbol in `t` has no display text in the table. -/
structure Untranslated where
  symbol : Text

def resolveValue (table : TranslationTable) (t : Text) : Except Untranslated Text :=
  let t := withoutCast t.trim
  if table.isSymbol t then
    match table.get? t with
    | some text => .ok text
    | none => .error ⟨t⟩
  else .ok (literalText t)

end ParameterManual.Constructor
