import ParameterManual.Text.Basic

/-!
# Member declarations

A declaration on one line of a class body names a type and a member. Blanks
inside a generic type carry no meaning and are dropped, so that type and
member are the only two words left.
-/

set_option autoImplicit false

namespace ParameterManual.Member

def tightAfter (c : Char) : Bool := c == '<' || c == ',' || Text.isBlank c

def tightBefore (c : Char) : Bool := c == '>' || c == ','

/-- Drops the blanks that follow an opening angle, a comma or a blank, or that
stand before a closing angle or a comma. The last character kept is given. -/
def tightenFrom : Option Char → Text → Text
  | _, [] => []
  | last, c :: t =>
    if Text.isBlank c &&
        (last.any tightAfter || (t.find? (fun d => !Text.isBlank d)).any tightBefore) then
      tightenFrom last t
    else c :: tightenFrom (some c) t

def tighten (t : Text) : Text := tightenFrom none t

def isSigil (c : Char) : Bool := c == '*' || c == '&'

structure Declaration where
  typeName : Text
  name : Text
  deriving DecidableEq, Repr

/-- A line that is no preprocessor line, names no function or template and
ends like a declaration. -/
def mayDeclare (line : Text) : Bool :=
  line.head? != some '#' && !line.contains '(' && !line.contains ')' &&
    !Text.occursIn "template".toList line && line.endsWithChar ';'

/-- What remains of a declaration without terminator and initializer. -/
def withoutInitializer (line : Text) : Text :=
  ((Text.dropEndWhile (· == ';') line).takeWhile (· != '=')).takeWhile (· != '\x7b')

def Declaration.ofLine? (line : Text) : Option Declaration :=
  let line := line.trim
  if mayDeclare line then
    match (tighten (withoutInitializer line)).words with
    | [typeName, declarator] =>
      let name := declarator.dropWhile isSigil
      if !name.isEmpty && name.all Text.isNameChar then
        some ⟨typeName ++ declarator.takeWhile isSigil, name⟩
      else none
    | _ => none
  else none

end ParameterManual.Member
