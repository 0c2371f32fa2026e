import ParameterManual.Source.Quoting

/-!
# Comments and code lines

A line comment runs to the end of its line and a block comment may run over
several lines. Literals do not: each line begins in code. The code lines of
a file are its lines without comments and outer blanks.
-/

set_option autoImplicit false

namespace ParameterManual.Source

mutual

/-- A line that begins in code, without its comments, and whether a block
comment is open at its end. -/
def stripCode : Quoting → Text → Text × Bool
  | _, [] => ([], false)
  | _, [c] => ([c], false)
  | s, c :: d :: t =>
    if s = .code ∧ c = '/' ∧ d = '/' then ([], false)
    else if s = .code ∧ c = '/' ∧ d = '*' then stripBlock t
    else
      let rest := stripCode (s.next c) (d :: t)
      (c :: rest.1, rest.2)

/-- The same for a line that begins inside a block comment. -/
def stripBlock : Text → Text × Bool
  | [] => ([], true)
  | [_] => ([], true)
  | c :: d :: t => if c = '*' ∧ d = '/' then stripCode .code t else stripBlock (d :: t)

end

def stripComments (inBlock : Bool) (line : Text) : Text × Bool :=
  if inBlock then stripBlock line else stripCode .code line

/-- Comments taken out of successive lines. -/
def stripLines : Bool → List Text → List Text
  | _, [] => []
  | inBlock, line :: rest =>
    let stripped := stripComments inBlock line
    stripped.1 :: stripLines stripped.2 rest

def codeLines (content : Text) : List Text :=
  (stripLines false content.lines).map Text.trim

end ParameterManual.Source
