import ParameterManual.Source.Comment
import ParameterManual.Statement.Basic

/-!
# Statements of a constructor body

The body of the constructor of a class starts on the first line with an
opening brace, from the line that names the constructor on, and ends where
the braces balance. Inside it a line that begins like a statement starts one,
and the statement takes in the following lines until its text ends with a
semicolon.
-/

set_option autoImplicit false

namespace ParameterManual.Constructor

open Source

/-- A statement put together from its lines, and where it starts. -/
structure Collected where
  text : Text
  location : Location
  deriving DecidableEq, Repr

/-- Whether a code line starts the constructor of the class; case does not
matter. -/
def opensConstructor (className line : Text) : Bool :=
  let name := className.asciiLower
  match Text.afterLead? (name ++ "::".toList ++ name) line.asciiLower with
  | some rest => (Text.trimStart rest).head? == some '('
  | none => false

/-- The statement under way after one more line of the body. -/
def continued (file : Text) (number : Nat) (line : Text) : Option Collected → Option Collected
  | some s => some { s with text := s.text ++ ' ' :: line }
  | none => if Statement.isStart line then some ⟨line, ⟨file, number⟩⟩ else none

def Collected.isComplete (s : Collected) : Bool := s.text.endsWithChar ';'

/-- The statements that complete on the lines of a body, of which the first
has the given number and begins at the given depth. A statement cut off by
the end of the text is not returned, one cut off by the end of the body is
an error. -/
def bodyStatements (file : Text) :
    Option Collected → (depth : Int) → (number : Nat) → List Text →
      Except Failure (List Collected)
  | _, _, _, [] => .ok []
  | underWay, depth, number, line :: rest =>
    let current := continued file number line underWay
    let complete := current.toList.filter Collected.isComplete
    let underWay := current.filter (fun s => !s.isComplete)
    let depth := depth + braceDelta line
    if 0 < depth then
      (complete ++ ·) <$> bodyStatements file underWay depth (number + 1) rest
    else
      match underWay with
      | some s => .error (.malformed .notTerminated s.location)
      | none => .ok complete

/-- The statements of the body that opens on one of the given lines. -/
def statementsAwaitingBrace (file : Text) :
    (number : Nat) → List Text → Except Failure (List Collected)
  | _, [] => .ok []
  | number, line :: rest =>
    if line.contains '\x7b' then
      if 0 < braceDelta line then bodyStatements file none (braceDelta line) (number + 1) rest
      else .ok []
    else statementsAwaitingBrace file (number + 1) rest

def statementsFrom (className file : Text) :
    (number : Nat) → List Text → Except Failure (Option (List Collected))
  | _, [] => .ok none
  | number, line :: rest =>
    if opensConstructor className line then
      some <$> statementsAwaitingBrace file number (line :: rest)
    else statementsFrom className file (number + 1) rest

/-- The statements of the constructor of a class, `none` if the file has no
such constructor. -/
def collect (className file content : Text) : Except Failure (Option (List Collected)) :=
  statementsFrom className file 1 (codeLines content)

end ParameterManual.Constructor
