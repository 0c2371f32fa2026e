import ParameterManual.Source.Quoting

/-!
# Arguments

An argument list is cut at the commas that lie outside literals and at
bracket depth zero. A closing bracket that was never opened leaves the depth
at zero. An argument that starts as a string literal stands for the contents
of all the string literals in it.
-/

set_option autoImplicit false

namespace ParameterManual.Source

def opens (c : Char) : Bool := c == '(' || c == '\x7b' || c == '['

def closes (c : Char) : Bool := c == ')' || c == '\x7d' || c == ']'

def depthAfter (depth : Nat) (c : Char) : Nat :=
  if opens c then depth + 1 else if closes c then depth - 1 else depth

/-- Puts a character in front of the first segment. -/
def extendFirst (c : Char) : List Text → List Text
  | [] => [[c]]
  | s :: ss => (c :: s) :: ss

/-- The stretches between the commas that separate arguments. -/
def segments : Quoting → (depth : Nat) → Text → List Text
  | _, _, [] => [[]]
  | s, depth, c :: t =>
    if s.covers c then extendFirst c (segments (s.next c) depth t)
    else if c = ',' ∧ depth = 0 then [] :: segments s 0 t
    else extendFirst c (segments s (depthAfter depth c) t)

def splitArguments (t : Text) : List Text :=
  if t.isAllBlank then [] else (segments .code 0 t).map Text.trim

mutual

/-- Contents of the string literals of a text that begins outside of one. -/
def literalContents : Text → Text
  | [] => []
  | c :: t => if c = '"' then literalRest t else literalContents t

/-- Contents of the string literals of a text that begins inside of one. -/
def literalRest : Text → Text
  | [] => []
  | c :: t =>
    if c = '\\' then
      match t with
      | [] => []
      | d :: r => d :: literalRest r
    else if c = '"' then literalContents t
    else c :: literalRest t

end

def unquote (t : Text) : Text :=
  let t := t.trim
  if t.head? = some '"' then literalContents t else t

end ParameterManual.Source
