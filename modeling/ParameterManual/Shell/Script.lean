import ParameterManual.Text.Basic

/-!
# Shell scripts

A word is a list of pieces, because quoted characters form no patterns and
are not split, and because parameters, sums and the output of commands are
put in when the word is used. Redirections hold the text of documents that
stand in the script itself.
-/

set_option autoImplicit false

namespace ParameterManual.Shell

inductive Choice where
  | default_
  | assign
  | require
  | alternative
  deriving DecidableEq, Repr

inductive Direction where
  | input
  | output
  /-- Output to a file that is replaced in any case. -/
  | replace
  | append
  | both
  | duplicate
  /-- The target is the text that is read. -/
  | document
  deriving DecidableEq, Repr

mutual

inductive Piece where
  | char (c : Char) (isQuoted : Bool)
  /-- Quotes, which make a word even if nothing is in them. -/
  | quotes
  | parameter (name : Text) (isQuoted : Bool)
  | length (name : Text) (isQuoted : Bool)
  /-- A word that may stand for a parameter. -/
  | choice (name : Text) (choice : Choice) (coversEmpty : Bool) (word : List Piece)
      (isQuoted : Bool)
  /-- A parameter less what matches a pattern at its start or end. -/
  | trimmed (name : Text) (atEnd isLongest : Bool) (pattern : List Piece) (isQuoted : Bool)
  | output (command : Command) (isQuoted : Bool)
  | sum (expression : List Piece) (isQuoted : Bool)
  /-- Braces that hold no parameter. -/
  | misnamed

inductive Redirect where
  | mk (descriptor : Nat) (direction : Direction) (target : List Piece)

inductive Command where
  | nothing
  | simple (line : Nat) (assignments : List (Text × List Piece)) (words : List (List Piece))
      (redirects : List Redirect)
  | pipeline (stages : List Command)
  | negation (command : Command)
  | both (first second : Command)
  | either (first second : Command)
  | sequence (first second : Command)
  | background (command : Command)
  | redirected (command : Command) (redirects : List Redirect)
  | subshell (command : Command)
  | choose (condition yes no : Command)
  | loop (isUntil : Bool) (condition body : Command)
  | each (name : Text) (words : Option (List (List Piece))) (body : Command)
  | select (word : List Piece) (branches : List (List (List Piece) × Command))
  | function (name : Text) (body : Command)

end

instance : Inhabited Command := ⟨.nothing⟩

abbrev Word := List Piece

def Word.plain? : Word → Option Text
  | [] => some []
  | .char c false :: w => (plain? w).map (c :: ·)
  | _ => none

/-- The characters of a word with quotes taken off, parameters left out. -/
def Word.letters (w : Word) : Text :=
  w.filterMap (fun
    | .char c _ => some c
    | _ => none)

def Word.parts (mark : Char) : Word → List Word
  | [] => [[]]
  | p :: w =>
    let rest := parts mark w
    match p with
    | .char c false =>
      if c = mark then [] :: rest else (p :: rest.headD []) :: rest.tail
    | _ => (p :: rest.headD []) :: rest.tail

def Word.isPlain (w : Word) : Bool := (Word.plain? w).isSome

def isNameStart (c : Char) : Bool := Text.isNameChar c && !Text.isDigit c

def isName (t : Text) : Bool := t.head?.any isNameStart && t.all Text.isNameChar

def Word.assignment? (w : Word) : Option (Text × Word) :=
  let name := w.takeWhile (fun
    | .char c false => Text.isNameChar c
    | _ => false)
  match w.drop name.length with
  | .char '=' false :: value =>
    if isName (letters name) then some (letters name, value) else none
  | _ => none

end ParameterManual.Shell
