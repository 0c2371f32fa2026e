import ParameterManual.Member.Declaration
import ParameterManual.Source.Call
import ParameterManual.Source.Comment
import ParameterManual.Text.Map

/-!
# Member tables

The members of a class are the declarations on the lines that begin at depth
one of its body. The body starts on the line that defines the class, or on
the first later line with an opening brace, and ends where the braces
balance. A table layered over another hides the members of the same name.
-/

set_option autoImplicit false

namespace ParameterManual

abbrev MemberTable := TextMap Text

namespace MemberTable

open Source Member

/-- Members that every configurable object has. -/
def framework : MemberTable :=
  TextMap.ofEntries [("label_".toList, "string".toList), ("type_".toList, "string".toList)]

def layeredOver (own base : MemberTable) : MemberTable := base.insertAll own

/-- Whether a code line starts the definition of the class; case does not
matter, and a line that ends with a semicolon declares it only. -/
def opensClass (className line : Text) : Bool :=
  match Text.afterLead? "class".toList line with
  | some (c :: rest) =>
    Text.isBlank c && !line.endsWithChar ';' &&
      match Text.afterLead? className.asciiLower (Text.trimStart rest).asciiLower with
      | some after => !after.head?.any Text.isNameChar
      | none => false
  | _ => false

/-- Declarations on the lines of depth one, from a line of the given depth. -/
def bodyDeclarations : (depth : Int) → List Text → List Declaration
  | _, [] => []
  | depth, line :: rest =>
    let own := if depth = 1 then (Declaration.ofLine? line).toList else []
    let depth := depth + braceDelta line
    if depth ≤ 0 then own else own ++ bodyDeclarations depth rest

def declarationsAwaitingBrace : List Text → List Declaration
  | [] => []
  | line :: rest =>
    if line.contains '\x7b' then bodyDeclarations (max (braceDelta line) 1) rest
    else declarationsAwaitingBrace rest

def declarations (className : Text) : List Text → List Declaration
  | [] => []
  | line :: rest =>
    if opensClass className line then
      if line.endsWithChar '\x7b' then bodyDeclarations 1 rest
      else declarationsAwaitingBrace rest
    else declarations className rest

def ofDeclarations (found : List Declaration) : MemberTable :=
  TextMap.ofEntries (found.map (fun d => (d.name, d.typeName)))

/-- The members that a declaration file gives a class. -/
def scan (className content : Text) : MemberTable :=
  ofDeclarations (declarations className (codeLines content))

end MemberTable

end ParameterManual
